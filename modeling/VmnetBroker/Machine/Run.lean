import Mathlib.Data.List.Induction

/-! # Finite runs of a partial step function

A machine is a partial function from a state and a label to the next state. A label that the
machine refuses ends the run, so a run that returns a state has accepted its whole tape. The
rules below are the only inductions over tapes that the invariants need: what one accepted step
keeps, a whole run keeps, with or without the tape read so far.
-/

namespace Machine

variable {σ ε : Type*} {step : σ → ε → Option σ} {source middle target : σ}
  {first second tape : List ε} {label : ε} {Meets : σ → ε → Prop}

/-- Feed the whole tape to the step function. -/
def run (step : σ → ε → Option σ) (source : σ) (tape : List ε) : Option σ :=
  tape.foldlM step source

@[simp] theorem run_nil : run step source [] = some source := rfl

@[simp] theorem run_cons :
    run step source (label :: tape) = (step source label).bind fun next => run step next tape := by
  simp only [run, List.foldlM_cons]
  rfl

/-- A run over a concatenation is two runs that meet at one state. -/
theorem run_append_eq_some : run step source (first ++ second) = some target ↔
    ∃ middle, run step source first = some middle ∧ run step middle second = some target := by
  simp only [run, List.foldlM_append]
  exact Option.bind_eq_some_iff

theorem run_concat_eq_some : run step source (tape ++ [label]) = some target ↔
    ∃ middle, run step source tape = some middle ∧ step middle label = some target := by
  simp only [run_append_eq_some, run_cons, run_nil, Option.bind_fun_some]

theorem run_append_of_run (left : run step source first = some middle)
    (right : run step middle second = some target) :
    run step source (first ++ second) = some target :=
  run_append_eq_some.mpr ⟨middle, left, right⟩

/-- A property of the tape and the state survives the run when every accepted step extends it. -/
theorem run_history (History : List ε → σ → Prop) (start : History [] source)
    (extend : ∀ tape middle label target, run step source tape = some middle →
      History tape middle → step middle label = some target → History (tape ++ [label]) target)
    (ran : run step source tape = some target) : History tape target := by
  induction tape using List.reverseRecOn generalizing target with
  | nil => cases ran; exact start
  | append_singleton tape label ih =>
    obtain ⟨middle, before, last⟩ := run_concat_eq_some.mp ran
    exact extend tape middle label target before (ih before) last

/-- Every step that the run takes meets a condition on its state and label. -/
def Along (step : σ → ε → Option σ) (Meets : σ → ε → Prop) : σ → List ε → Prop
  | _, [] => True
  | state, label :: tape => Meets state label ∧ (step state label).elim True fun next => Along step Meets next tape

instance Along.decidable [∀ (state : σ) (label : ε), Decidable (Meets state label)] :
    ∀ (state : σ) (tape : List ε), Decidable (Along step Meets state tape)
  | _, [] => inferInstanceAs (Decidable True)
  | state, label :: tape =>
    have (next : σ) : Decidable (Along step Meets next tape) := decidable next tape
    have : Decidable ((step state label).elim True fun next => Along step Meets next tape) :=
      match step state label with
      | none => inferInstanceAs (Decidable True)
      | some next => this next
    inferInstanceAs (Decidable (_ ∧ _))

theorem Along.tail {next : σ} (along : Along step Meets source (label :: tape))
    (stepped : step source label = some next) : Along step Meets next tape := by
  have rest := along.2
  rwa [stepped] at rest

/-- Two conditions met along one run are met together. -/
theorem Along.and {Also : σ → ε → Prop} (first : Along step Meets source tape)
    (second : Along step Also source tape) :
    Along step (fun state label => Meets state label ∧ Also state label) source tape := by
  induction tape generalizing source with
  | nil => trivial
  | cons label tape ih =>
    refine ⟨⟨first.1, second.1⟩, ?_⟩
    cases stepped : step source label with
    | none => trivial
    | some next => exact ih (first.tail stepped) (second.tail stepped)

/-- The invariant rule, for runs whose steps all meet a side condition. -/
theorem run_invariant_along (Invariant : σ → Prop)
    (keep : ∀ state label next, Invariant state → Meets state label →
      step state label = some next → Invariant next)
    (start : Invariant source) (along : Along step Meets source tape)
    (ran : run step source tape = some target) : Invariant target := by
  induction tape generalizing source with
  | nil => cases ran; exact start
  | cons label tape ih =>
    rw [run_cons] at ran
    obtain ⟨next, stepped, rest⟩ := Option.bind_eq_some_iff.mp ran
    exact ih (keep source label next start along.1 stepped) (along.tail stepped) rest

/-- A condition that the labels meet in every state is met along every run. -/
theorem Along.of_forall (meets : ∀ label ∈ tape, ∀ state, Meets state label) :
    Along step Meets source tape := by
  induction tape generalizing source with
  | nil => trivial
  | cons label tape ih =>
    refine ⟨meets label (List.mem_cons_self ..) source, ?_⟩
    cases step source label with
    | none => trivial
    | some next => exact ih fun other member => meets other (List.mem_cons_of_mem _ member)

/-- A condition met along two runs that meet at one state is met along their concatenation, and conversely. -/
theorem along_append (ran : run step source first = some middle) :
    Along step Meets source (first ++ second) ↔
      Along step Meets source first ∧ Along step Meets middle second := by
  induction first generalizing source with
  | nil =>
    cases ran
    exact ⟨fun along => ⟨trivial, along⟩, fun both => both.2⟩
  | cons label first ih =>
    rw [run_cons] at ran
    obtain ⟨next, stepped, rest⟩ := Option.bind_eq_some_iff.mp ran
    simp only [List.cons_append, Along, stepped, Option.elim_some, ih rest, and_assoc]

/-- The invariant rule, for tapes whose labels all satisfy a side condition. -/
theorem run_invariant (Allowed : ε → Prop) (Invariant : σ → Prop)
    (keep : ∀ state label next, Invariant state → Allowed label →
      step state label = some next → Invariant next)
    (start : Invariant source) (allowed : ∀ label ∈ tape, Allowed label)
    (ran : run step source tape = some target) : Invariant target :=
  run_invariant_along Invariant keep start (.of_forall fun label member _ => allowed label member) ran

/-- A machine whose steps can be matched by another, seen through a view of its states: so can its runs. -/
theorem run_view {τ ι : Type*} {other : τ → ι → Option τ} (view : σ → τ) (Matches : ε → ι → Prop)
    (simulate : ∀ state label next, step state label = some next →
      ∃ twin, Matches label twin ∧ other (view state) twin = some (view next))
    (ran : run step source tape = some target) :
    ∃ twins, List.Forall₂ Matches tape twins ∧ run other (view source) twins = some (view target) := by
  induction tape generalizing source with
  | nil =>
    cases ran
    exact ⟨[], .nil, rfl⟩
  | cons label tape ih =>
    rw [run_cons] at ran
    obtain ⟨next, stepped, rest⟩ := Option.bind_eq_some_iff.mp ran
    obtain ⟨twin, matched, moved⟩ := simulate source label next stepped
    obtain ⟨twins, all, later⟩ := ih rest
    refine ⟨twin :: twins, .cons matched all, ?_⟩
    rw [run_cons, moved]
    exact later

/-- A run whose steps all spend one unit is as long as what it has spent. -/
theorem run_measure (Allowed : ε → Prop) (Invariant : σ → Prop) (measure : σ → ℕ)
    (spend : ∀ state label next, Invariant state → Allowed label → step state label = some next →
      Invariant next ∧ measure next + 1 = measure state)
    (start : Invariant source) (allowed : ∀ label ∈ tape, Allowed label)
    (ran : run step source tape = some target) : tape.length + measure target = measure source := by
  induction tape generalizing source with
  | nil => cases ran; exact Nat.zero_add _
  | cons label tape ih =>
    rw [run_cons] at ran
    obtain ⟨next, stepped, rest⟩ := Option.bind_eq_some_iff.mp ran
    obtain ⟨kept, spent⟩ := spend source label next start (allowed label (List.mem_cons_self ..)) stepped
    have remaining := ih kept (fun other member => allowed other (List.mem_cons_of_mem _ member)) rest
    rw [List.length_cons]
    omega

/-- A property that each step keeps exactly when it meets a condition holds throughout a run exactly when the
condition is met along it. -/
theorem run_throughout_iff (Holds : σ → Prop)
    (keep : ∀ state label next, Holds state → step state label = some next → (Holds next ↔ Meets state label))
    (start : Holds source) (ran : run step source tape = some target) :
    (∀ first second middle, tape = first ++ second → run step source first = some middle → Holds middle) ↔
      Along step Meets source tape := by
  induction tape generalizing source with
  | nil =>
    refine ⟨fun _ => trivial, ?_⟩
    intro _ first second middle split ran
    obtain rfl := (List.append_eq_nil_iff.mp split.symm).1
    cases ran
    exact start
  | cons label tape ih =>
    rw [run_cons] at ran
    obtain ⟨next, stepped, rest⟩ := Option.bind_eq_some_iff.mp ran
    have here := keep source label next start stepped
    simp only [Along, stepped, Option.elim_some]
    constructor
    · intro throughout
      have held : Holds next := throughout [label] tape next rfl (by rw [run_cons, stepped]; rfl)
      refine ⟨here.mp held, (ih held rest).mp ?_⟩
      intro first second middle split ran
      exact throughout (label :: first) second middle (by rw [split, List.cons_append])
        (by rw [run_cons, stepped]; exact ran)
    · rintro ⟨meets, along⟩ first second middle split ran
      cases first with
      | nil =>
        cases ran
        exact start
      | cons other first =>
        obtain ⟨rfl, same⟩ := List.cons.inj split
        rw [run_cons, stepped] at ran
        exact (ih (here.mpr meets) rest).mpr along first second middle same ran

/-- Some step of the run satisfied `Start`, and every step after it satisfied `Quiet`. -/
inductive Since (step : σ → ε → Option σ) (Start Quiet : σ → ε → σ → Prop) (source : σ) :
    List ε → σ → Prop
  | start {tape : List ε} {middle target : σ} {label : ε} (before : run step source tape = some middle)
      (stepped : step middle label = some target) (starts : Start middle label target) :
      Since step Start Quiet source (tape ++ [label]) target
  | extend {tape : List ε} {middle target : σ} {label : ε} (past : Since step Start Quiet source tape middle)
      (stepped : step middle label = some target) (quiet : Quiet middle label target) :
      Since step Start Quiet source (tape ++ [label]) target

/-- What has happened since a step may be described more weakly, step by step. -/
theorem Since.mono {Start Quiet First Rest : σ → ε → σ → Prop}
    (start : ∀ tape middle label next, run step source tape = some middle → step middle label = some next →
      Start middle label next → First middle label next)
    (quiet : ∀ tape middle label next, run step source tape = some middle → step middle label = some next →
      Quiet middle label next → Rest middle label next)
    (since : Since step Start Quiet source tape target) :
    run step source tape = some target ∧ Since step First Rest source tape target := by
  induction since with
  | start before stepped starts =>
    exact ⟨run_concat_eq_some.mpr ⟨_, before, stepped⟩, .start before stepped (start _ _ _ _ before stepped starts)⟩
  | extend past stepped still ih =>
    obtain ⟨before, earlier⟩ := ih
    exact ⟨run_concat_eq_some.mpr ⟨_, before, stepped⟩,
      .extend earlier stepped (quiet _ _ _ _ before stepped still)⟩

/-- A state property that only a `Start` step can bring about, and that persists through `Quiet`
steps only, has held since a `Start` step whenever it holds. -/
theorem since_of_run {Start Quiet : σ → ε → σ → Prop} (Holds : σ → Prop) (unborn : ¬ Holds source)
    (cause : ∀ tape middle label target, run step source tape = some middle →
      step middle label = some target → Holds target →
        Start middle label target ∨ Holds middle ∧ Quiet middle label target)
    (ran : run step source tape = some target) (holds : Holds target) :
    Since step Start Quiet source tape target := by
  have history : Holds target → Since step Start Quiet source tape target := by
    apply run_history (fun tape state => Holds state → Since step Start Quiet source tape state) _ _ ran
    · exact fun started => absurd started unborn
    · intro tape middle label target before past stepped holds
      rcases cause tape middle label target before stepped holds with starts | ⟨held, quiet⟩
      · exact .start before stepped starts
      · exact .extend (past held) stepped quiet
  exact history holds

end Machine
