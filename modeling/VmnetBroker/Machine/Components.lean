import VmnetBroker.Machine.Run
import Mathlib.Logic.Function.Basic

/-! # Independent components and simulation

A family of components, each with its own state, moves when a label addressed to one of them
arrives. The state of a component depends on the labels addressed to it and on nothing else, so all
interleavings of the same component sequences end in the same family. A concrete machine inherits
this through a simulation: the abstract machine is deterministic, and it may ignore labels.
-/

namespace Machine

section Components

variable {ι τ α : Type*} [DecidableEq ι] (act : τ → α → τ)

/-- Deliver one label to the component it is addressed to. -/
def deliver (family : ι → τ) (label : ι × α) : ι → τ :=
  Function.update family label.1 (act (family label.1) label.2)

/-- A component moves by its own labels only. -/
theorem foldl_deliver_apply (family : ι → τ) (tape : List (ι × α)) (component : ι) :
    tape.foldl (deliver act) family component =
      ((tape.filter (·.1 = component)).map (·.2)).foldl act (family component) := by
  induction tape generalizing family with
  | nil => rfl
  | cons label tape ih =>
    rw [List.foldl_cons, ih]
    by_cases addressed : label.1 = component
    · rw [List.filter_cons_of_pos (by simpa using addressed), List.map_cons, List.foldl_cons]
      subst addressed
      rw [deliver, Function.update_self]
    · rw [List.filter_cons_of_neg (by simpa using addressed), deliver,
        Function.update_of_ne (Ne.symm addressed)]

/-- Two interleavings of the same component sequences end in the same family. -/
theorem foldl_deliver_congr {left right : List (ι × α)}
    (same : ∀ component, (left.filter (·.1 = component)).map (·.2) = (right.filter (·.1 = component)).map (·.2))
    (family : ι → τ) : left.foldl (deliver act) family = right.foldl (deliver act) family := by
  funext component
  rw [foldl_deliver_apply, foldl_deliver_apply, same component]

end Components

section Simulation

variable {σ ε τ α : Type*} {step : σ → ε → Option σ} {source target : σ} {tape : List ε}
  {Meets : σ → ε → Prop}

/-- A concrete run is matched by the abstract run over the labels that the abstract machine sees. -/
theorem run_simulation (observe : ε → Option α) (act : τ → α → τ) (Related : σ → τ → Prop)
    (simulate : ∀ state label next abstract, Related state abstract → Meets state label →
      step state label = some next → Related next ((observe label).elim abstract (act abstract)))
    {abstract : τ} (start : Related source abstract) (along : Along step Meets source tape)
    (ran : run step source tape = some target) :
    Related target ((tape.filterMap observe).foldl act abstract) := by
  induction tape generalizing source abstract with
  | nil => cases ran; exact start
  | cons label tape ih =>
    rw [run_cons] at ran
    obtain ⟨next, stepped, rest⟩ := Option.bind_eq_some_iff.mp ran
    have related := simulate source label next abstract start along.1 stepped
    have finished := ih related (along.tail stepped) rest
    cases seen : observe label with
    | none =>
      rw [List.filterMap_cons_none seen]
      rwa [seen] at finished
    | some action =>
      rw [List.filterMap_cons_some seen, List.foldl_cons]
      rwa [seen] at finished

end Simulation

end Machine
