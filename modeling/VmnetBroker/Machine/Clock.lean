import VmnetBroker.Machine.Run
import Mathlib.Order.Nat

/-! # Machines with timers on a clock

The states of a machine arm one-shot timers, all set to one timeout, and some labels are the firing of
a timer. On the clock every label carries the time at which it happens: time never goes back, and a
timer fires no earlier than it is due. A timed run is a run of the machine, so its invariants carry
over; what the clock adds is how long a timer has been waiting.
-/

namespace Machine

/-- A machine, the timers that are armed in a state, and the timer that a label fires. -/
structure Timers (σ ε τ : Type*) where
  step : σ → ε → Option σ
  armed : σ → τ → Bool
  fires : ε → Option τ
  timeout : ℕ

/-- A state, the time of the last label, and the time from which each armed timer may fire. -/
structure Clocked (σ τ : Type*) where
  state : σ
  now : ℕ
  due : τ → ℕ

namespace Timers

variable {σ ε τ : Type*}

/-- The label may happen at this time. -/
def Ready (timers : Timers σ ε τ) (clocked : Clocked σ τ) (label : ℕ × ε) : Prop :=
  clocked.now ≤ label.1 ∧ ∀ timer ∈ timers.fires label.2, clocked.due timer ≤ label.1

instance (timers : Timers σ ε τ) (clocked : Clocked σ τ) : DecidablePred (timers.Ready clocked) :=
  fun _ => inferInstanceAs (Decidable (_ ∧ ∀ timer ∈ _, _))

/-- A timer that the label arms is due one timeout later. -/
def advance (timers : Timers σ ε τ) (clocked : Clocked σ τ) (time : ℕ) (next : σ) : Clocked σ τ where
  state := next
  now := time
  due timer := if timers.armed clocked.state timer then clocked.due timer else time + timers.timeout

/-- One label of the machine, at its time. -/
def tick (timers : Timers σ ε τ) (clocked : Clocked σ τ) (label : ℕ × ε) : Option (Clocked σ τ) :=
  if timers.Ready clocked label then
    (timers.step clocked.state label.2).map (timers.advance clocked label.1)
  else none

/-- No armed timer is later than its due time by more than the leeway. -/
def Punctual (timers : Timers σ ε τ) (leeway : ℕ) (clocked : Clocked σ τ) (label : ℕ × ε) : Prop :=
  ∀ timer, timers.armed clocked.state timer = true → label.1 ≤ clocked.due timer + leeway

variable {timers : Timers σ ε τ} {source middle target : Clocked σ τ} {label : ℕ × ε} {tape : List (ℕ × ε)}
  {timer : τ} {leeway : ℕ}

theorem tick_eq_some : timers.tick source label = some target ↔
    timers.Ready source label ∧ ∃ next, timers.step source.state label.2 = some next ∧
      timers.advance source label.1 next = target := by
  unfold tick
  split
  · next ready => simp [ready]
  · next early => simp [early]

/-- A timed step is a step. -/
theorem tick_step (ticked : timers.tick source label = some target) :
    timers.step source.state label.2 = some target.state := by
  obtain ⟨_, next, stepped, rfl⟩ := tick_eq_some.mp ticked
  exact stepped

theorem tick_now (ticked : timers.tick source label = some target) : target.now = label.1 := by
  obtain ⟨_, next, _, rfl⟩ := tick_eq_some.mp ticked
  rfl

theorem tick_now_le (ticked : timers.tick source label = some target) : source.now ≤ target.now := by
  rw [tick_now ticked]
  exact (tick_eq_some.mp ticked).1.1

theorem tick_due (ticked : timers.tick source label = some target) (timer : τ) :
    target.due timer = if timers.armed source.state timer then source.due timer else label.1 + timers.timeout := by
  obtain ⟨_, next, _, rfl⟩ := tick_eq_some.mp ticked
  rfl

theorem tick_due_of_armed (ticked : timers.tick source label = some target)
    (armed : timers.armed source.state timer = true) : target.due timer = source.due timer := by
  rw [tick_due ticked, if_pos armed]

theorem tick_due_of_unarmed (ticked : timers.tick source label = some target)
    (unarmed : timers.armed source.state timer = false) : target.due timer = label.1 + timers.timeout := by
  rw [tick_due ticked, unarmed]
  rfl

/-- A timed run is a run. -/
theorem run_forget (ran : run timers.tick source tape = some target) :
    run timers.step source.state (tape.map (·.2)) = some target.state := by
  induction tape generalizing source with
  | nil => cases ran; rfl
  | cons label tape ih =>
    rw [run_cons] at ran
    obtain ⟨next, ticked, rest⟩ := Option.bind_eq_some_iff.mp ran
    rw [List.map_cons, run_cons, tick_step ticked]
    exact ih rest

section Waiting

variable (Invariant : σ → Prop) (Waits : σ → τ → Prop)

/-- A class of armed timers that a step can only extend by timers that it arms. -/
structure Purpose (timers : Timers σ ε τ) : Prop where
  keep : ∀ state label next, Invariant state → timers.step state label = some next → Invariant next
  armed : ∀ state timer, Waits state timer → timers.armed state timer = true
  origin : ∀ state label next timer, Invariant state → timers.step state label = some next → Waits next timer →
    Waits state timer ∨ timers.armed state timer = false

variable {Invariant Waits}

/-- Where no timer of a class waits, none is due before one timeout has passed, for the rest of the run. -/
theorem run_due_of_unwaited (purpose : Purpose Invariant Waits timers) (start : Invariant source.state)
    (unwaited : ∀ timer, ¬ Waits source.state timer) (ran : run timers.tick source tape = some target)
    (waits : Waits target.state timer) : source.now + timers.timeout ≤ target.due timer := by
  have invariant : Invariant target.state ∧ source.now ≤ target.now ∧
      ∀ timer, Waits target.state timer → source.now + timers.timeout ≤ target.due timer := by
    refine run_invariant (fun _ => True) (fun clocked => Invariant clocked.state ∧ source.now ≤ clocked.now ∧
      ∀ timer, Waits clocked.state timer → source.now + timers.timeout ≤ clocked.due timer) ?_
      ⟨start, le_rfl, fun timer waiting => absurd waiting (unwaited timer)⟩ (fun _ _ => trivial) ran
    rintro clocked label next ⟨good, past, waiting⟩ _ ticked
    have stepped := tick_step ticked
    have later := past.trans (tick_now_le ticked)
    refine ⟨purpose.keep _ _ _ good stepped, later, fun timer waits => ?_⟩
    rcases purpose.origin _ _ _ timer good stepped waits with before | unarmed
    · rw [tick_due_of_armed ticked (purpose.armed _ _ before)]
      exact waiting timer before
    · rw [tick_due_of_unarmed ticked unarmed, ← tick_now ticked]
      exact Nat.add_le_add_right later _
  exact invariant.2.2 timer waits

/-- A waiting timer was armed by one step of the run and has waited since; it is due one timeout after that step. -/
theorem run_waiting_since (purpose : Purpose Invariant Waits timers) (start : Invariant source.state)
    (unwaited : ¬ Waits source.state timer) (ran : run timers.tick source tape = some target)
    (waits : Waits target.state timer) :
    Since timers.tick
      (fun middle label next => ¬ Waits middle.state timer ∧ Waits next.state timer ∧
        target.due timer = label.1 + timers.timeout)
      (fun middle _ next => Waits middle.state timer ∧ Waits next.state timer) source tape target := by
  refine since_of_run (fun clocked => Waits clocked.state timer ∧ clocked.due timer = target.due timer)
    (fun ⟨waiting, _⟩ => unwaited waiting) ?_ ran ⟨waits, rfl⟩
  rintro tape middle label next before ticked ⟨running, due⟩
  have good : Invariant middle.state := by
    refine run_invariant (fun _ => True) (fun clocked => Invariant clocked.state) ?_ start (fun _ _ => trivial) before
    exact fun _ _ _ good _ ticked => purpose.keep _ _ _ good (tick_step ticked)
  by_cases waiting : Waits middle.state timer
  · exact Or.inr ⟨⟨waiting, (tick_due_of_armed ticked (purpose.armed _ _ waiting)).symm.trans due⟩, waiting, running⟩
  · have unarmed := (purpose.origin _ _ _ timer good (tick_step ticked) running).resolve_left waiting
    exact Or.inl ⟨waiting, running, due.symm.trans (tick_due_of_unarmed ticked unarmed)⟩

end Waiting

/-- In a punctual run no armed timer is overdue by more than the leeway. -/
theorem run_punctual (start : ∀ timer, timers.armed source.state timer = true → source.now ≤ source.due timer + leeway)
    (punctual : Along timers.tick (timers.Punctual leeway) source tape)
    (ran : run timers.tick source tape = some target) (armed : timers.armed target.state timer = true) :
    target.now ≤ target.due timer + leeway := by
  refine run_invariant_along (fun clocked => ∀ timer, timers.armed clocked.state timer = true →
    clocked.now ≤ clocked.due timer + leeway) ?_ start punctual ran timer armed
  intro clocked label next _ prompt ticked timer running
  cases before : timers.armed clocked.state timer with
  | true =>
    rw [tick_now ticked, tick_due_of_armed ticked before]
    exact prompt timer before
  | false =>
    rw [tick_now ticked, tick_due_of_unarmed ticked before]
    omega

end Timers

end Machine
