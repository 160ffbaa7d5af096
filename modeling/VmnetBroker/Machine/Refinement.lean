import Mathlib.Tactic.TypeStar

/-! # Refinement in both directions

A concrete machine moves with or without a visible action; an abstract machine acts visibly at every step.
When a relation carries each concrete move over, every concrete path shows a trace of the abstract machine.
When in addition it carries each abstract action back, the concrete machine has all of these traces.
-/

namespace Machine

variable {σ τ α : Type*}

/-- A path of the concrete machine, with the actions that it shows. -/
inductive Path (move : σ → Option α → σ → Prop) : σ → List α → σ → Prop
  | nil {state : σ} : Path move state [] state
  | visible {source middle target : σ} {action : α} {actions : List α} (moved : move source (some action) middle)
      (rest : Path move middle actions target) : Path move source (action :: actions) target
  | hidden {source middle target : σ} {actions : List α} (moved : move source none middle)
      (rest : Path move middle actions target) : Path move source actions target

/-- A trace of the abstract machine. -/
inductive Trace (act : τ → α → τ → Prop) : τ → List α → τ → Prop
  | nil {state : τ} : Trace act state [] state
  | cons {source middle target : τ} {action : α} {actions : List α} (acted : act source action middle)
      (rest : Trace act middle actions target) : Trace act source (action :: actions) target

variable {move : σ → Option α → σ → Prop} {act : τ → α → τ → Prop} {Related : σ → τ → Prop}
  {source target : σ} {abstract final : τ} {actions : List α}

/-- The relation carries concrete moves over. -/
structure Refines (move : σ → Option α → σ → Prop) (act : τ → α → τ → Prop) (Related : σ → τ → Prop) : Prop where
  hidden : ∀ source target abstract, Related source abstract → move source none target → Related target abstract
  visible : ∀ source action target abstract, Related source abstract → move source (some action) target →
    ∃ next, act abstract action next ∧ Related target next

/-- The relation carries abstract actions back. -/
structure Realises (move : σ → Option α → σ → Prop) (act : τ → α → τ → Prop) (Related : σ → τ → Prop) : Prop where
  visible : ∀ source action abstract next, Related source abstract → act abstract action next →
    ∃ target, move source (some action) target ∧ Related target next

/-- What a concrete path shows is a trace of the abstract machine. -/
theorem Refines.trace (refines : Refines move act Related) (start : Related source abstract)
    (path : Path move source actions target) : ∃ final, Trace act abstract actions final ∧ Related target final := by
  induction path generalizing abstract with
  | nil => exact ⟨abstract, .nil, start⟩
  | visible moved rest ih =>
    obtain ⟨next, acted, related⟩ := refines.visible _ _ _ _ start moved
    obtain ⟨final, shown, finished⟩ := ih related
    exact ⟨final, .cons acted shown, finished⟩
  | hidden moved rest ih => exact ih (refines.hidden _ _ _ start moved)

/-- Every trace of the abstract machine is shown by a concrete path. -/
theorem Realises.path (realises : Realises move act Related) (start : Related source abstract)
    (shown : Trace act abstract actions final) : ∃ target, Path move source actions target ∧ Related target final := by
  induction shown generalizing source with
  | nil => exact ⟨source, .nil, start⟩
  | cons acted rest ih =>
    obtain ⟨middle, moved, related⟩ := realises.visible _ _ _ _ start acted
    obtain ⟨target, path, finished⟩ := ih related
    exact ⟨target, .visible moved path, finished⟩

end Machine
