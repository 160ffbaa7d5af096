import VmnetBroker.Machine.Table
import Mathlib.Algebra.Order.Group.Multiset

/-! # Reference-counted objects

Objects own references to the objects they hold, and everybody else's references are a multiset of roots. An
object whose last reference is released is freed and releases what it holds. The invariant is a balance: the
count of an object is the number of roots and of holders that refer to it. It says how every operation may be
used, and without roots that are used twice it leaves no object unaccounted for.
-/

namespace Machine

/-- The references to an object, and the objects that it holds. -/
structure Cell where
  count : ℕ
  parts : List ℕ
deriving DecidableEq, Repr

/-- The live objects; identities are never used again. -/
structure Store where
  cells : AList fun _ : ℕ => Cell := ∅
  next : ℕ := 0

namespace Store

/-- Replace the cell of an object. -/
def write (store : Store) (object : ℕ) (cell : Cell) : Store := { store with cells := store.cells.insert object cell }

/-- A new object with one reference; the references to its parts are its own from now on. -/
def create (store : Store) (parts : List ℕ) : ℕ × Store :=
  (store.next, { cells := store.cells.insert store.next ⟨1, parts⟩, next := store.next + 1 })

def retain (store : Store) (object : ℕ) : Option Store :=
  (store.cells.lookup object).map fun cell => store.write object { cell with count := cell.count + 1 }

/-- Release the pending references, and those of the objects freed on the way. -/
def drain : ℕ → Store → List ℕ → Option Store
  | _, store, [] => some store
  | 0, _, _ :: _ => none
  | fuel + 1, store, object :: pending =>
    match store.cells.lookup object with
    | some ⟨1, parts⟩ => drain fuel { store with cells := store.cells.erase object } (parts ++ pending)
    | some ⟨count + 2, parts⟩ => drain fuel (store.write object ⟨count + 1, parts⟩) pending
    | _ => none

/-- The number of all references. -/
def references (store : Store) : ℕ := store.cells.total Cell.count

def release (store : Store) (object : ℕ) : Option Store := drain store.references store [object]

/-- The references to one object; an object that does not exist has none. -/
def count (store : Store) (object : ℕ) : ℕ := ((store.cells.lookup object).map Cell.count).getD 0

/-- The references that live objects hold. -/
def held (store : Store) : Multiset ℕ := store.cells.total fun cell => (cell.parts : Multiset ℕ)

/-- Every reference is a root or held by an object, and unreferenced objects are gone. -/
structure Balanced (store : Store) (roots : Multiset ℕ) : Prop where
  counted : ∀ object, store.count object = roots.count object + store.held.count object
  positive : ∀ object cell, store.cells.lookup object = some cell → 0 < cell.count
  fresh : ∀ object ∈ store.cells, object < store.next

variable {store next : Store} {roots : Multiset ℕ} {object : ℕ} {cell : Cell} {parts pending : List ℕ} {fuel : ℕ}

theorem count_of_lookup (found : store.cells.lookup object = some cell) : store.count object = cell.count := by
  simp [count, found]

theorem count_eq_zero (absent : object ∉ store.cells) : store.count object = 0 := by
  simp [count, AList.lookup_eq_none.mpr absent]

theorem count_write (store : Store) (object other : ℕ) (cell : Cell) :
    (store.write object cell).count other = if other = object then cell.count else store.count other := by
  unfold count write
  rw [AList.lookup_insert_eq]
  split <;> simp

theorem count_erase (store : Store) (object other : ℕ) :
    count { store with cells := store.cells.erase object } other =
      if other = object then 0 else store.count other := by
  unfold count
  rw [AList.lookup_erase_eq]
  split <;> simp

theorem Balanced.empty : Balanced {} 0 where
  counted object := by simp [count, held]
  positive := by simp
  fresh := by simp

namespace Balanced

/-- A root is a live object. -/
theorem mem (balanced : store.Balanced roots) (root : object ∈ roots) : object ∈ store.cells := by
  by_contra absent
  have counted := balanced.counted object
  rw [count_eq_zero absent] at counted
  have positive := Multiset.count_pos.mpr root
  omega

/-- What is not there yet is neither a root nor held. -/
theorem next_count (balanced : store.Balanced roots) : roots.count store.next = 0 ∧ store.held.count store.next = 0 := by
  have absent : store.next ∉ store.cells := fun member => (balanced.fresh _ member).false
  have counted := balanced.counted store.next
  rw [count_eq_zero absent] at counted
  omega

/-- A new object takes over the references to its parts. -/
theorem create (balanced : store.Balanced ((parts : Multiset ℕ) + roots)) :
    (store.create parts).2.Balanced ((store.create parts).1 ::ₘ roots) := by
  have absent : store.next ∉ store.cells := fun member => (balanced.fresh _ member).false
  have unused := balanced.next_count
  rw [Multiset.count_add] at unused
  have held : (store.create parts).2.held = (parts : Multiset ℕ) + store.held := AList.total_insert_of_notMem _ absent _
  refine ⟨?_, ?_, ?_⟩
  · intro object
    have counted := balanced.counted object
    rw [held, Multiset.count_add, Multiset.count_cons]
    rw [Multiset.count_add] at counted
    have written : (store.create parts).2.count object = if object = store.next then 1 else store.count object := by
      simp only [Store.create, count, AList.lookup_insert_eq]
      split <;> simp
    rw [written]
    change _ = _ + (if object = store.next then 1 else 0) + _
    split
    · next same =>
      subst same
      omega
    · omega
  · intro object cell found
    simp only [Store.create, AList.lookup_insert_eq] at found
    split at found
    · cases found
      exact Nat.one_pos
    · exact balanced.positive object cell found
  · intro object member
    rcases (AList.mem_insert _).mp member with rfl | old
    · exact Nat.lt_succ_self _
    · exact (balanced.fresh object old).trans (Nat.lt_succ_self _)

theorem create_bare (balanced : store.Balanced roots) : (store.create []).2.Balanced (store.next ::ₘ roots) :=
  create (by simpa using balanced)

/-- Rewriting a count moves one reference in or out of the roots. -/
theorem write (balanced : store.Balanced roots) (found : store.cells.lookup object = some cell) {count : ℕ}
    (positive : 0 < count) {others : Multiset ℕ}
    (counted : ∀ other, others.count other + (if other = object then cell.count else 0) =
      roots.count other + if other = object then count else 0) :
    (store.write object { cell with count := count }).Balanced others := by
  have held : (store.write object { cell with count := count }).held = store.held := by
    have total := AList.total_insert_of_lookup (fun cell : Cell => (cell.parts : Multiset ℕ)) found
      { cell with count := count }
    exact add_right_cancel total
  refine ⟨?_, ?_, ?_⟩
  · intro other
    have before := balanced.counted other
    have moved := counted other
    rw [count_write, held]
    split
    · next same =>
      subst same
      rw [count_of_lookup found] at before
      rw [if_pos rfl, if_pos rfl] at moved
      change count = _
      omega
    · next different =>
      rw [if_neg different, if_neg different] at moved
      omega
  · intro other stored lookup
    simp only [Store.write, AList.lookup_insert_eq] at lookup
    split at lookup
    · cases lookup
      exact positive
    · exact balanced.positive other stored lookup
  · intro other member
    rcases (AList.mem_insert _).mp member with rfl | old
    · exact balanced.fresh _ (AList.mem_of_lookup found)
    · exact balanced.fresh other old

/-- Whoever can name a live object can retain it. -/
theorem retain (balanced : store.Balanced roots) (live : object ∈ store.cells) :
    ∃ next, store.retain object = some next ∧ next.Balanced (object ::ₘ roots) := by
  obtain ⟨cell, found⟩ := AList.exists_lookup live
  refine ⟨_, by rw [Store.retain, found]; rfl, balanced.write found (Nat.succ_pos _) ?_⟩
  intro other
  rw [Multiset.count_cons]
  split <;> omega

/-- Freeing an object hands its references on. -/
theorem erase (balanced : store.Balanced (object ::ₘ roots)) (found : store.cells.lookup object = some ⟨1, parts⟩) :
    Balanced { store with cells := store.cells.erase object } ((parts : Multiset ℕ) + roots) := by
  have split_held : store.held = (parts : Multiset ℕ) + held { store with cells := store.cells.erase object } :=
    AList.total_of_lookup _ found
  refine ⟨?_, ?_, ?_⟩
  · intro other
    have counted := balanced.counted other
    rw [split_held, Multiset.count_add, Multiset.count_cons] at counted
    rw [count_erase, Multiset.count_add]
    split
    · next same =>
      subst same
      rw [count_of_lookup found, if_pos rfl] at counted
      change 1 = _ at counted
      omega
    · next different =>
      rw [if_neg different] at counted
      omega
  · intro other stored lookup
    rw [AList.lookup_erase_eq] at lookup
    split at lookup
    · contradiction
    · exact balanced.positive other stored lookup
  · intro other member
    exact balanced.fresh other (AList.mem_erase.mp member).2

/-- Pending references can all be released. -/
theorem drain (balanced : store.Balanced ((pending : Multiset ℕ) + roots)) (enough : store.references ≤ fuel) :
    ∃ next, Store.drain fuel store pending = some next ∧ next.Balanced roots := by
  induction fuel generalizing store pending with
  | zero =>
    cases pending with
    | nil => exact ⟨store, by simp [Store.drain], by simpa using balanced⟩
    | cons object pending =>
      obtain ⟨cell, found⟩ := AList.exists_lookup (balanced.mem (by simp : object ∈ _))
      have positive := balanced.positive object cell found
      rw [references, AList.total_of_lookup _ found] at enough
      omega
  | succ fuel ih =>
    cases pending with
    | nil => exact ⟨store, by simp [Store.drain], by simpa using balanced⟩
    | cons object pending =>
      rw [← Multiset.cons_coe, Multiset.cons_add] at balanced
      obtain ⟨⟨count, parts⟩, found⟩ := AList.exists_lookup (balanced.mem (Multiset.mem_cons_self ..))
      have total : store.references = count + references { store with cells := store.cells.erase object } :=
        AList.total_of_lookup _ found
      match count, balanced.positive object _ found with
      | 1, _ =>
        have freed := balanced.erase found
        rw [← add_assoc, Multiset.coe_add] at freed
        obtain ⟨next, drained, remaining⟩ := ih freed (by omega)
        exact ⟨next, by simp only [Store.drain, found, drained], remaining⟩
      | count + 2, _ =>
        have lowered : (store.write object ⟨count + 1, parts⟩).Balanced ((pending : Multiset ℕ) + roots) := by
          apply balanced.write found (Nat.succ_pos count)
          intro other
          rw [Multiset.count_cons]
          dsimp only
          split <;> omega
        have fewer := AList.total_insert_of_lookup Cell.count found ⟨count + 1, parts⟩
        change references (store.write object ⟨count + 1, parts⟩) + (count + 2) =
          store.references + (count + 1) at fewer
        obtain ⟨next, drained, remaining⟩ := ih lowered (by omega)
        exact ⟨next, by simp only [Store.drain, found, drained], remaining⟩

/-- A root can be released. -/
theorem release (balanced : store.Balanced (object ::ₘ roots)) :
    ∃ next, store.release object = some next ∧ next.Balanced roots :=
  drain (by simpa using balanced) le_rfl

/-- What a live object holds is live. -/
theorem mem_of_part (balanced : store.Balanced roots) (found : store.cells.lookup object = some cell) {part : ℕ}
    (holds : part ∈ cell.parts) : part ∈ store.cells := by
  by_contra absent
  have counted := balanced.counted part
  rw [count_eq_zero absent, held, AList.total_of_lookup _ found, Multiset.count_add] at counted
  have positive := Multiset.count_pos.mpr (Multiset.mem_coe.mpr holds)
  omega

/-- When no object holds others, the live objects are the roots. -/
theorem count_of_plain (balanced : store.Balanced roots) (plain : store.held = 0) (object : ℕ) :
    store.count object = roots.count object := by
  rw [balanced.counted, plain, Multiset.count_zero, Nat.add_zero]

end Balanced

section Parts

/-- Objects hold what they held. -/
def Within (store next : Store) : Prop :=
  ∀ object cell, next.cells.lookup object = some cell →
    ∃ before, store.cells.lookup object = some before ∧ before.parts = cell.parts

theorem Within.refl (store : Store) : store.Within store := fun _ cell found => ⟨cell, found, rfl⟩

theorem Within.trans {middle : Store} (first : store.Within middle) (second : middle.Within next) :
    store.Within next := by
  intro object cell found
  obtain ⟨between, lookup, same⟩ := second object cell found
  obtain ⟨before, earlier, again⟩ := first object between lookup
  exact ⟨before, earlier, again.trans same⟩

theorem within_write (found : store.cells.lookup object = some cell) (count : ℕ) :
    store.Within (store.write object { cell with count := count }) := by
  intro other stored lookup
  simp only [write, AList.lookup_insert_eq] at lookup
  split at lookup
  · next same =>
    cases lookup
    exact ⟨cell, same ▸ found, rfl⟩
  · exact ⟨stored, lookup, rfl⟩

theorem within_retain (retained : store.retain object = some next) : store.Within next := by
  obtain ⟨cell, found, rfl⟩ := Option.map_eq_some_iff.mp retained
  exact within_write found _

theorem within_drain (drained : drain fuel store pending = some next) : store.Within next := by
  induction fuel generalizing store pending with
  | zero =>
    cases pending with
    | nil => cases drained; exact .refl _
    | cons object pending => contradiction
  | succ fuel ih =>
    cases pending with
    | nil => cases drained; exact .refl _
    | cons object pending =>
      simp only [drain] at drained
      split at drained
      · next found =>
        refine Within.trans ?_ (ih drained)
        intro other stored lookup
        rw [AList.lookup_erase_eq] at lookup
        split at lookup
        · contradiction
        · exact ⟨stored, lookup, rfl⟩
      · next found => exact (within_write found _).trans (ih drained)
      · contradiction

theorem within_release (released : store.release object = some next) : store.Within next := within_drain released

/-- No object holds another. -/
def Plain (store : Store) : Prop := ∀ object cell, store.cells.lookup object = some cell → cell.parts = []

theorem Plain.within (plain : store.Plain) (within : store.Within next) : next.Plain := by
  intro object cell found
  obtain ⟨before, lookup, same⟩ := within object cell found
  rw [← same]
  exact plain object before lookup

theorem Plain.create (plain : store.Plain) : (store.create []).2.Plain := by
  intro object cell found
  simp only [Store.create, AList.lookup_insert_eq] at found
  split at found
  · cases found
    rfl
  · exact plain object cell found

/-- Plain objects hold no references. -/
theorem Plain.held (plain : store.Plain) : store.held = 0 := by
  apply List.sum_eq_zero
  intro parts member
  obtain ⟨⟨object, cell⟩, entry, rfl⟩ := List.mem_map.mp member
  change (cell.parts : Multiset ℕ) = 0
  rw [plain object cell (List.mem_dlookup store.cells.nodupKeys entry)]
  rfl

private theorem exists_of_mem_sum {α : Type*} {parts : α → Multiset ℕ} {list : List α} {part : ℕ}
    (member : part ∈ (list.map parts).sum) : ∃ entry ∈ list, part ∈ parts entry := by
  induction list with
  | nil => simp at member
  | cons entry list ih =>
    rw [List.map_cons, List.sum_cons, Multiset.mem_add] at member
    rcases member with here | later
    · exact ⟨entry, List.mem_cons_self .., here⟩
    · obtain ⟨other, listed, holds⟩ := ih later
      exact ⟨other, List.mem_cons_of_mem _ listed, holds⟩

/-- Held references are in the parts of live objects. -/
theorem exists_of_mem_held {part : ℕ} (member : part ∈ store.held) :
    ∃ object cell, store.cells.lookup object = some cell ∧ part ∈ cell.parts := by
  obtain ⟨⟨object, cell⟩, entry, holds⟩ := exists_of_mem_sum member
  exact ⟨object, cell, List.mem_dlookup store.cells.nodupKeys entry, holds⟩

/-- A released root that nothing else refers to is gone. -/
theorem Balanced.absent (balanced : store.Balanced roots) (unrooted : object ∉ roots)
    (unheld : ∀ other cell, store.cells.lookup other = some cell → object ∉ cell.parts) : object ∉ store.cells := by
  intro live
  obtain ⟨cell, found⟩ := AList.exists_lookup live
  have counted := balanced.counted object
  have positive := balanced.positive object cell found
  rw [count_of_lookup found, Multiset.count_eq_zero.mpr unrooted] at counted
  have held : 0 < store.held.count object := by omega
  obtain ⟨other, holder, lookup, holds⟩ := exists_of_mem_held (Multiset.count_pos.mp held)
  exact unheld other holder lookup holds

end Parts

end Store

end Machine
