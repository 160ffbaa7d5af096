import Mathlib.Data.List.AList
import Mathlib.Algebra.BigOperators.Group.List.Basic
import Mathlib.Tactic.Abel

/-! # Counting and summing over finite tables

Mathlib's `AList` supplies lookup, insertion and erasure. The additions here move one binding to
the front of the entries up to permutation, so that every order-independent observation of a
table (a count of bindings, a sum over bindings) reduces to that binding and the erased rest.
-/

/-- A count is a sum of ones. -/
theorem List.countP_eq_sum {α : Type*} (test : α → Bool) (list : List α) :
    list.countP test = (list.map fun item => if test item then 1 else 0).sum := by
  induction list with
  | nil => rfl
  | cons item rest ih =>
    rw [List.countP_cons, List.map_cons, List.sum_cons, ih]
    exact Nat.add_comm _ _

namespace AList

variable {κ ν : Type*} [DecidableEq κ] {table : AList fun _ : κ => ν} {key other : κ} {value : ν}

/-- The binding of a key and the other bindings are all the bindings. -/
theorem entries_perm_of_lookup (found : table.lookup key = some value) :
    table.entries.Perm (⟨key, value⟩ :: (table.erase key).entries) := by
  have member : key ∈ table.entries.keys :=
    List.mem_keys_of_mem (List.of_mem_dlookup (Option.mem_def.mpr found))
  obtain ⟨stored, before, after, _, split, rest⟩ := List.exists_of_kerase member
  have read : table.lookup key = some stored :=
    List.mem_dlookup table.nodupKeys (split ▸ List.mem_append_right _ (List.mem_cons_self ..))
  obtain rfl := Option.some.inj (found.symm.trans read)
  change table.entries.Perm (⟨key, value⟩ :: table.entries.kerase key)
  rw [rest, split]
  exact List.perm_middle

/-- Reading a table after one insertion. -/
theorem lookup_insert_eq (table : AList fun _ : κ => ν) (key other : κ) (value : ν) :
    (table.insert key value).lookup other = if other = key then some value else table.lookup other := by
  split
  · next same => rw [same, lookup_insert]
  · next different => exact lookup_insert_ne different

/-- Reading a table after one erasure. -/
theorem lookup_erase_eq (table : AList fun _ : κ => ν) (key other : κ) :
    (table.erase key).lookup other = if other = key then none else table.lookup other := by
  split
  · next same => rw [same, lookup_erase]
  · next different => exact lookup_erase_ne different

theorem mem_of_lookup (found : table.lookup key = some value) : key ∈ table :=
  lookup_isSome.mp (by simp [found])

/-- What a table lists of its values is what its lookups show. -/
theorem mem_filterMap_entries {β : Type*} {shown : ν → Option β} {item : β} :
    item ∈ table.entries.filterMap (fun entry => shown entry.2) ↔
      ∃ key value, table.lookup key = some value ∧ shown value = some item := by
  simp only [List.mem_filterMap, Sigma.exists]
  refine exists_congr fun key => exists_congr fun value => and_congr_left' ?_
  exact AList.mem_lookup_iff.symm

/-- A table that only gained one key shows an item at no other key exactly when it did not list the item. -/
theorem notMem_filterMap_entries_iff {β : Type*} {shown : ν → Option β} {item : β} {after : AList fun _ : κ => ν}
    (absent : table.lookup key = none) (others : ∀ other, other ≠ key → after.lookup other = table.lookup other) :
    item ∉ table.entries.filterMap (fun entry => shown entry.2) ↔
      ∀ other value, after.lookup other = some value → shown value = some item → other = key := by
  rw [mem_filterMap_entries]
  constructor
  · intro unlisted other value found same
    by_contra different
    exact unlisted ⟨other, value, (others other different).symm.trans found, same⟩
  · rintro alone ⟨other, value, found, same⟩
    have different : other ≠ key := by
      rintro rfl
      exact absurd (absent.symm.trans found) (by simp)
    exact different (alone other value ((others other different).trans found) same)

theorem exists_lookup (member : key ∈ table) : ∃ value, table.lookup key = some value :=
  Option.isSome_iff_exists.mp (lookup_isSome.mpr member)

/-- Erasing a binding that was just written erases what it replaced. -/
theorem erase_insert_self (table : AList fun _ : κ => ν) (key : κ) (value : ν) :
    (table.insert key value).erase key = table.erase key := by
  apply AList.ext
  exact List.kerase_cons_eq rfl

theorem erase_of_notMem (absent : key ∉ table) : table.erase key = table :=
  AList.ext (List.kerase_of_notMem_keys absent)

/-- Erasing a binding that was just added for a new key restores the table. -/
theorem erase_insert_of_notMem (absent : key ∉ table) : (table.insert key value).erase key = table := by
  rw [erase_insert_self, erase_of_notMem absent]

/-- Overwriting a binding keeps the number of bindings. -/
theorem length_insert_of_lookup (found : table.lookup key = some value) (new : ν) :
    (table.insert key new).entries.length = table.entries.length :=
  (entries_perm_of_lookup found).length_eq.symm

theorem length_insert_of_notMem (absent : key ∉ table) (value : ν) :
    (table.insert key value).entries.length = table.entries.length + 1 := by
  rw [entries_insert_of_notMem absent, List.length_cons]

theorem length_erase_of_lookup (found : table.lookup key = some value) :
    table.entries.length = (table.erase key).entries.length + 1 :=
  (entries_perm_of_lookup found).length_eq

omit [DecidableEq κ] in
/-- A table without members is empty. -/
theorem eq_empty_of_forall_notMem (absent : ∀ key, key ∉ table) : table = ∅ := by
  apply AList.ext
  refine List.eq_nil_iff_forall_not_mem.mpr ?_
  rintro ⟨key, value⟩ member
  exact absent key (List.mem_keys_of_mem member)

/-- Reading every key of a table gives its values. -/
theorem filterMap_lookup_keys (table : AList fun _ : κ => ν) :
    table.keys.filterMap table.lookup = table.entries.map (·.2) := by
  rw [AList.keys, List.keys, List.filterMap_map, ← List.filterMap_eq_map]
  apply List.filterMap_congr
  intro entry member
  exact List.mem_dlookup table.nodupKeys member

section Total

variable {M : Type*} [AddCommMonoid M] (weight : ν → M)

/-- The sum of a weight over all bindings. -/
def total (table : AList fun _ : κ => ν) : M :=
  (table.entries.map fun entry => weight entry.2).sum

omit [DecidableEq κ] in
@[simp] theorem total_empty : total weight (∅ : AList fun _ : κ => ν) = 0 := rfl

theorem total_of_lookup (found : table.lookup key = some value) :
    table.total weight = weight value + (table.erase key).total weight := by
  rw [total, ((entries_perm_of_lookup found).map _).sum_eq]
  exact List.sum_cons

theorem total_insert (table : AList fun _ : κ => ν) (key : κ) (value : ν) :
    (table.insert key value).total weight = weight value + (table.erase key).total weight :=
  List.sum_cons

theorem total_insert_of_notMem (absent : key ∉ table) (value : ν) :
    (table.insert key value).total weight = weight value + table.total weight := by
  rw [total_insert, erase_of_notMem absent]

/-- Overwriting a binding exchanges its weight and nothing else. -/
theorem total_insert_of_lookup (found : table.lookup key = some value) (new : ν) :
    (table.insert key new).total weight + weight value = table.total weight + weight new := by
  rw [total_insert, total_of_lookup weight found]
  abel

end Total

end AList
