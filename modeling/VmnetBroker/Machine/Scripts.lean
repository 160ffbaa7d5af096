import Mathlib.Data.List.Basic

/-! # Scripts that may stop

A script is a list of commands, each a partial function on a state. It ends at the first command that is refused, or
is stopped from outside between two of them. A triple says what holds wherever a script ends that starts under its
precondition, and what holds where it has performed all of its commands. Triples compose with the scripts.
-/

namespace Machine

variable {σ ε : Type*} {command : σ → ε → Option σ} {state next : σ} {label : ε} {first second script : List ε}

/-- Perform the commands up to the first that is refused: the state then, and whether there was none. -/
def perform (command : σ → ε → Option σ) : σ → List ε → σ × Bool
  | state, [] => (state, true)
  | state, label :: script => (command state label).elim (state, false) fun next => perform command next script

@[simp] theorem perform_nil : perform command state [] = (state, true) := rfl

theorem perform_accepted (accepted : command state label = some next) :
    perform command state (label :: script) = perform command next script := by
  rw [perform, accepted, Option.elim_some]

theorem perform_refused (refused : command state label = none) :
    perform command state (label :: script) = (state, false) := by
  rw [perform, refused, Option.elim_none]

/-- The second part of a script starts where the first has ended, if it has. -/
theorem perform_append : perform command state (first ++ second) =
    if (perform command state first).2 then perform command (perform command state first).1 second
    else perform command state first := by
  induction first generalizing state with
  | nil => rfl
  | cons label first ih =>
    rw [List.cons_append]
    cases accepted : command state label with
    | none => rw [perform_refused accepted, perform_refused accepted, if_neg Bool.false_ne_true]
    | some next => rw [perform_accepted accepted, perform_accepted accepted, ih]

/-- Commands that change nothing. -/
theorem perform_idle (idle : ∀ label ∈ script, command state label = some state) :
    perform command state script = (state, true) := by
  induction script with
  | nil => rfl
  | cons label script ih =>
    rw [perform_accepted (idle label (List.mem_cons_self ..))]
    exact ih fun other member => idle other (List.mem_cons_of_mem _ member)

/-- The commands before the stop, all of them if there is none. -/
def upTo (stop : Option ℕ) (script : List ε) : List ε := stop.elim script script.take

/-- Where a script ends that starts under a precondition, and where it ends complete. -/
structure Triple (command : σ → ε → Option σ) (Before : σ → Prop) (script : List ε) (After Stopped : σ → Prop) :
    Prop where
  stopped : ∀ state count, Before state → Stopped (perform command state (script.take count)).1
  after : ∀ state, Before state → (perform command state script).2 = true → After (perform command state script).1

namespace Triple

variable {Before Between After Stopped Weaker : σ → Prop}

protected theorem nil (after : ∀ state, Before state → After state) (stopped : ∀ state, Before state → Stopped state) :
    Triple command Before [] After Stopped where
  stopped state count start := by
    rw [List.take_nil]
    exact stopped state start
  after state start _ := after state start

protected theorem cons (here : ∀ state, Before state → Stopped state)
    (moved : ∀ state next, Before state → command state label = some next → Between next)
    (rest : Triple command Between script After Stopped) : Triple command Before (label :: script) After Stopped where
  stopped state count start := by
    cases count with
    | zero => exact here state start
    | succ count =>
      rw [List.take_succ_cons]
      cases accepted : command state label with
      | none =>
        rw [perform_refused accepted]
        exact here state start
      | some next =>
        rw [perform_accepted accepted]
        exact rest.stopped next count (moved state next start accepted)
  after state start complete := by
    cases accepted : command state label with
    | none =>
      rw [perform_refused accepted] at complete
      contradiction
    | some next =>
      rw [perform_accepted accepted] at complete ⊢
      exact rest.after next (moved state next start accepted) complete

/-- Two scripts in sequence. A stop in the first part is a stop of the first script. -/
protected theorem append (head : Triple command Before first Between Stopped)
    (rest : Triple command Between second After Stopped) : Triple command Before (first ++ second) After Stopped where
  stopped state count start := by
    rw [List.take_append, perform_append]
    split
    · next complete =>
      obtain early | late := Nat.le_total count first.length
      · rw [Nat.sub_eq_zero_of_le early, List.take_zero]
        exact head.stopped state count start
      · rw [List.take_of_length_le late] at complete ⊢
        exact rest.stopped _ _ (head.after state start complete)
    · exact head.stopped state count start
  after state start complete := by
    rw [perform_append] at complete ⊢
    split at complete
    · next first =>
      rw [if_pos first]
      exact rest.after _ (head.after state start first) complete
    · next unfinished => contradiction

/-- The rule of consequence. -/
theorem mono (triple : Triple command Between script After Stopped) (before : ∀ state, Before state → Between state)
    (stopped : ∀ state, Stopped state → Weaker state) : Triple command Before script After Weaker where
  stopped state count start := stopped _ (triple.stopped state count (before state start))
  after state start := triple.after state (before state start)

/-- What every command keeps holds wherever the script ends. -/
theorem invariant (keep : ∀ label ∈ script, ∀ state next, Before state → command state label = some next → Before next) :
    Triple command Before script Before Before := by
  induction script with
  | nil => exact .nil (fun _ start => start) fun _ start => start
  | cons label script ih =>
    apply Triple.cons (fun _ start => start) (keep label (List.mem_cons_self ..))
    exact ih fun other member => keep other (List.mem_cons_of_mem _ member)

/-- Wherever it is stopped, and if it is. -/
theorem ends (triple : Triple command Before script After Stopped) (start : Before state) (stop : Option ℕ) :
    Stopped (perform command state (upTo stop script)).1 := by
  cases stop with
  | some count => exact triple.stopped state count start
  | none =>
    have whole := triple.stopped state script.length start
    rwa [List.take_length] at whole

end Triple

end Machine
