import VmnetBroker.Proofs.Accounts

/-! # The system account of the broker

`find_unique_id` looks at the user ids below 400 only, so its id is free exactly when some user is in
the range, the next id is not a group's, and the next id is not the user 400. `preinstall` tests its two
accounts one by one and writes an id computed now, so it repairs what a stopped script left only if the
account that is there has this very id.
-/

namespace VmnetBroker

/-- The directory has no account of the broker. -/
def Directory.Absent (directory : Directory) : Prop := directory.user = none ∧ directory.group = none

instance : DecidablePred Directory.Absent := fun directory =>
  inferInstanceAs (Decidable (directory.user = none ∧ directory.group = none))

section UniqueId

/-- The id is in the range for system users, and no user and no group has it. -/
def FreeId (users groups : List ℤ) (id : ℤ) : Prop := 200 ≤ id ∧ id ≤ 400 ∧ id ∉ users ∧ id ∉ groups

/-- Some user is in the range, and the id above the greatest of them is free. -/
def RoomAbove (users groups : List ℤ) : Prop :=
  ∃ last ∈ users, InRange last ∧ (∀ id ∈ users, InRange id → id ≤ last) ∧ last + 1 ∉ groups ∧
    (last = 399 → 400 ∉ users)

/-- Nobody else has the ids of the account, which are in the range for system users. -/
def Directory.Private (directory : Directory) : Prop :=
  ∃ id, directory.userID = some id ∧ directory.groupID = some id ∧ 200 ≤ id ∧ id ≤ 400 ∧
    (∀ name record, directory.users.lookup name = some record → record.uniqueID = some id → name = userName) ∧
    ∀ name record, directory.groups.lookup name = some record → record.primaryGroupID = some id → name = groupName

instance (users groups : List ℤ) (id : ℤ) : Decidable (FreeId users groups id) :=
  inferInstanceAs (Decidable (200 ≤ id ∧ id ≤ 400 ∧ id ∉ users ∧ id ∉ groups))

variable {users groups : List ℤ} {directory : Directory} {idCommand : IdCommand} {id : ℤ}

/-- The id of `find_unique_id` is free exactly when there is room above the greatest user id. -/
theorem freeId_findUniqueId_iff (users groups : List ℤ) :
    FreeId users groups (findUniqueId users) ↔ RoomAbove users groups := by
  rcases findUniqueId_cases users with ⟨empty, one⟩ | ⟨last, member, range, greatest, next⟩
  · rw [one]
    constructor
    · rintro ⟨low, _⟩
      omega
    · rintro ⟨last, member, range, _⟩
      exact absurd range (empty last member)
  · obtain ⟨above, below⟩ := range
    rw [next]
    constructor
    · rintro ⟨_, _, user, group⟩
      refine ⟨last, member, ⟨above, below⟩, greatest, group, ?_⟩
      rintro rfl
      exact user
    · rintro ⟨other, listed, range, least, group, edge⟩
      obtain rfl : other = last := le_antisymm (greatest other listed range) (least last member ⟨above, below⟩)
      refine ⟨by omega, by omega, ?_, group⟩
      intro taken
      by_cases inside : other + 1 < 400
      · have bounded := greatest (other + 1) taken ⟨by omega, inside⟩
        omega
      · obtain rfl : other = 399 := by omega
        exact edge rfl taken

/-- The account that `preinstall` creates is shared with nobody exactly when its id is free. -/
theorem private_preinstall_iff (absent : directory.Absent) :
    (directory.perform (preinstall idCommand directory)).Private ↔
      FreeId directory.uniqueIDs directory.primaryGroupIDs (findUniqueId directory.uniqueIDs) := by
  obtain ⟨noUser, noGroup⟩ := absent
  have noAccount : userExists idCommand directory = false := by simp [userExists, noUser]
  have uid : (directory.perform (preinstall idCommand directory)).userID =
      some (findUniqueId directory.uniqueIDs) := by
    rw [Directory.userID_preinstall, noAccount]
    rfl
  have gid : (directory.perform (preinstall idCommand directory)).groupID =
      some (findUniqueId directory.uniqueIDs) := by
    rw [Directory.groupID_preinstall, groupExists, noGroup]
    rfl
  generalize findUniqueId directory.uniqueIDs = id at uid gid ⊢
  have user : id ∉ directory.uniqueIDs ↔ _ := AList.notMem_filterMap_entries_iff noUser fun name other =>
    directory.users_perform (preinstall idCommand directory) other
  have group : id ∉ directory.primaryGroupIDs ↔ _ := AList.notMem_filterMap_entries_iff noGroup fun name other =>
    directory.groups_perform (preinstall idCommand directory) other
  simp only [Directory.Private, FreeId, uid, gid, Option.some.injEq, user, group]
  constructor
  · rintro ⟨_, rfl, _, free⟩
    exact free
  · intro free
    exact ⟨id, rfl, rfl, free⟩

/-- The id is free, and an account created among these users and groups is shared with nobody, exactly when
there is room above the greatest user id in the range. -/
theorem unique_id_is_free_iff (users groups : List ℤ) :
    (FreeId users groups (findUniqueId users) ↔ RoomAbove users groups) ∧
    ∀ idCommand (directory : Directory), directory.Absent → directory.uniqueIDs = users →
      directory.primaryGroupIDs = groups →
      ((directory.perform (preinstall idCommand directory)).Private ↔ RoomAbove users groups) := by
  refine ⟨freeId_findUniqueId_iff users groups, ?_⟩
  rintro idCommand directory absent rfl rfl
  rw [private_preinstall_iff absent]
  exact freeId_findUniqueId_iff _ _

/-- `id -u` that asks for a user id only. -/
def findsById : IdCommand where
  finds record := record.uniqueID.isSome
  finds_complete _ identified _ := identified

/-- A system with one user in the range, and one group. -/
def oneSystemUser : Directory where
  users := ((∅ : AList fun _ : String => UserRecord).insert "root" { uniqueID := some 0 }).insert
    "_daemon" { uniqueID := some 250 }
  groups := (∅ : AList fun _ : String => GroupRecord).insert "wheel" { primaryGroupID := some 0 }

theorem unique_id_is_free_iff_oneSystemUser : oneSystemUser.Absent ∧
    (oneSystemUser.perform (preinstall findsById oneSystemUser)).Private := by
  have absent : oneSystemUser.Absent := by decide
  have room : RoomAbove oneSystemUser.uniqueIDs oneSystemUser.primaryGroupIDs :=
    ⟨250, by decide, by decide, by decide, by decide, by decide⟩
  refine ⟨absent, ?_⟩
  exact ((unique_id_is_free_iff _ _).2 findsById oneSystemUser absent rfl rfl).mpr room

/-- One user and two groups leave the id 252 free, and `find_unique_id` returns the id of a group. -/
theorem unique_id_taken_by_group : FreeId [0, 250] [0, 251] 252 ∧ findUniqueId [0, 250] = 251 ∧
    ¬ FreeId [0, 250] [0, 251] (findUniqueId [0, 250]) := by
  decide

end UniqueId

section Repair

/-- User and group have the same `PrimaryGroupID`. -/
def Directory.Matched (directory : Directory) : Prop :=
  ∃ gid, directory.groupID = some gid ∧ directory.userGroupID = some gid

/-- If only one of the accounts exists, its group id, if it has one, is the id that `find_unique_id`
returns now. -/
def Consistent (idCommand : IdCommand) (directory : Directory) : Prop :=
  (groupExists directory = true → userExists idCommand directory = false →
    ∀ gid ∈ directory.groupID, gid = findUniqueId directory.uniqueIDs) ∧
  (userExists idCommand directory = true → groupExists directory = false →
    ∀ gid ∈ directory.userGroupID, gid = findUniqueId directory.uniqueIDs)

/-- Every account that exists has a group id. -/
def Usable (idCommand : IdCommand) (directory : Directory) : Prop :=
  (groupExists directory = true → directory.groupID.isSome = true) ∧
  (userExists idCommand directory = true → directory.userGroupID.isSome = true)

/-- A complete install finds accounts that it can complete. One that is stopped finds a consistent account,
or is stopped before it sets a group id: with its third command for the user, with its second for the group. -/
def Repairable (idCommand : IdCommand) (directory : Directory) : Change → Prop
  | .install none => Consistent idCommand directory ∧ Usable idCommand directory
  | .install (some count) => Consistent idCommand directory ∨ count ≤ if groupExists directory then 2 else 1
  | .uninstall _ => True
  | .others _ => True

instance (idCommand : IdCommand) (directory : Directory) : Decidable (Consistent idCommand directory) :=
  inferInstanceAs (Decidable (_ ∧ _))

instance (idCommand : IdCommand) (directory : Directory) : Decidable (Usable idCommand directory) :=
  inferInstanceAs (Decidable (_ ∧ _))

instance (idCommand : IdCommand) (directory : Directory) : DecidablePred (Repairable idCommand directory)
  | .install none => inferInstanceAs (Decidable (Consistent _ _ ∧ Usable _ _))
  | .install (some _) => inferInstanceAs (Decidable (Consistent _ _ ∨ _ ≤ _))
  | .uninstall _ | .others _ => inferInstanceAs (Decidable True)

variable {start directory next : Directory} {idCommand : IdCommand} {history : List Change} {change : Change}

/-- An account that is there and not complete carries the id that the install is about to write. -/
theorem Consistent.agrees (consistent : Consistent idCommand directory) (sound : directory.Sound)
    (incomplete : groupExists directory = false ∨ userExists idCommand directory = false) :
    directory.Agrees (findUniqueId directory.uniqueIDs) := by
  obtain ⟨alone, lonely⟩ := consistent
  cases group : groupExists directory with
  | false =>
    refine ⟨by simp [Directory.groupID_eq_none group], ?_⟩
    cases user : userExists idCommand directory with
    | false => simp [sound.userGroupID_eq_none user]
    | true => exact lonely user group
  | true =>
    rw [group] at incomplete
    have user : userExists idCommand directory = false := by simpa using incomplete
    exact ⟨alone group user, by simp [sound.userGroupID_eq_none user]⟩

/-- An install of a consistent account leaves a sound one wherever it is stopped. -/
theorem Consistent.sound (consistent : Consistent idCommand directory) (sound : directory.Sound) (count : ℕ) :
    (directory.perform ((preinstall idCommand directory).take count)).Sound := by
  refine ⟨?_, sound.identified.preinstall idCommand count⟩
  by_cases incomplete : groupExists directory = false ∨ userExists idCommand directory = false
  · have agrees : (directory.perform ((preinstall idCommand directory).take count)).Agrees
        (findUniqueId directory.uniqueIDs) := by
      refine Directory.perform_invariant (fun state => state.Agrees (findUniqueId directory.uniqueIDs)) ?_
        (consistent.agrees sound incomplete)
      intro state command member kept
      exact kept.dscl (Directory.preinstall_subset idCommand directory (List.mem_of_mem_take member))
    intro mine set yours also
    exact (agrees.1 mine set).trans (agrees.2 yours also).symm
  · rw [not_or, Bool.not_eq_false, Bool.not_eq_false] at incomplete
    rw [Directory.preinstall_eq, if_pos incomplete.1, if_pos incomplete.2, List.append_nil, List.take_nil]
    exact sound.agree

/-- The commands of an install before the one that sets a group id. -/
theorem writesGroupID_preinstall {count : ℕ} (early : count ≤ if groupExists directory then 2 else 1)
    {command : Dscl} (member : command ∈ (preinstall idCommand directory).take count) :
    command.writesGroupID = false := by
  have listed := List.take_subset_take_left _ early member
  rw [Directory.preinstall_eq] at listed
  cases group : groupExists directory with
  | false =>
    simp only [group, Bool.false_eq_true, if_false, createGroup, List.cons_append, List.take_succ_cons,
      List.take_zero, List.mem_singleton] at listed
    rw [listed]
    rfl
  | true =>
    cases user : userExists idCommand directory with
    | false =>
      simp only [group, user, Bool.false_eq_true, if_false, if_true, createUser, List.nil_append,
        List.take_succ_cons, List.take_zero, List.mem_cons, List.not_mem_nil, or_false] at listed
      rcases listed with rfl | rfl
      · rfl
      · rfl
    | true => simp [group, user] at listed

/-- Uninstalling sets no group id. -/
theorem writesGroupID_uninstall {command : Dscl} (member : command ∈ uninstall idCommand directory) :
    command.writesGroupID = false := by
  simp only [uninstall, List.mem_append, List.mem_ite_nil_right, List.mem_singleton] at member
  rcases member with ⟨_, rfl⟩ | ⟨_, rfl⟩
  · rfl
  · rfl

theorem mem_of_mem_performed {commands : List Dscl} {stop : Option ℕ} {command : Dscl}
    (member : command ∈ performed commands stop) : command ∈ commands := by
  cases stop with
  | none => exact member
  | some count => exact List.mem_of_mem_take member

/-- A change that meets the condition keeps the account sound. -/
theorem Repairable.sound (repairable : Repairable idCommand directory change) (sound : directory.Sound)
    (changed : directory.change idCommand change = some next) : next.Sound := by
  cases change with
  | install stop =>
    obtain rfl := Option.some.inj changed
    cases stop with
    | none =>
      have whole := repairable.1.sound sound (preinstall idCommand directory).length
      rwa [List.take_length] at whole
    | some count =>
      rcases repairable with consistent | early
      · exact consistent.sound sound count
      · exact sound.perform fun command member => writesGroupID_preinstall early member
  | uninstall stop =>
    obtain rfl := Option.some.inj changed
    exact sound.perform fun command member => writesGroupID_uninstall (mem_of_mem_performed member)
  | others other =>
    simp only [Directory.change, Option.ite_none_right_eq_some, Option.some.injEq] at changed
    obtain ⟨⟨user, group⟩, rfl⟩ := changed
    obtain ⟨agree, identified⟩ := sound
    unfold Directory.Identified at identified
    simp only [Directory.groupID, Directory.userGroupID, Directory.userID, ← user, ← group] at agree identified
    exact ⟨agree, identified⟩

/-- No account has nothing to disagree about. -/
theorem Directory.Absent.sound (absent : start.Absent) : start.Sound := by
  obtain ⟨user, group⟩ := absent
  constructor
  · simp [Directory.groupID, group]
  · simp [Directory.Identified, Directory.userGroupID, user]

/-- An id is the only one it can be, and is set. -/
theorem eq_some_iff_all (stored : Option ℤ) (id : ℤ) :
    stored = some id ↔ (∀ gid ∈ stored, gid = id) ∧ stored.isSome = true := by
  cases stored with
  | none => simp
  | some gid => simp

/-- A complete install of a sound account repairs it exactly when every account that exists has a group id,
and a single one has the id that `find_unique_id` returns. -/
theorem Directory.Sound.matched_preinstall_iff (sound : directory.Sound) :
    (directory.perform (preinstall idCommand directory)).Matched ↔
      Consistent idCommand directory ∧ Usable idCommand directory := by
  simp only [Directory.Matched, Directory.groupID_preinstall, Directory.userGroupID_preinstall, Consistent, Usable]
  cases group : groupExists directory with
  | false =>
    cases user : userExists idCommand directory with
    | false => simp
    | true => simpa using eq_some_iff_all directory.userGroupID _
  | true =>
    cases user : userExists idCommand directory with
    | false => simpa using eq_some_iff_all directory.groupID _
    | true =>
      simp only [if_true, forall_const, Bool.true_eq_false, false_implies, and_self, true_and]
      constructor
      · rintro ⟨gid, mine, yours⟩
        simp [mine, yours]
      · rintro ⟨mine, yours⟩
        obtain ⟨gid, set⟩ := Option.isSome_iff_exists.mp mine
        obtain ⟨other, also⟩ := Option.isSome_iff_exists.mp yours
        obtain rfl := sound.agree gid set other also
        exact ⟨gid, set, also⟩

/-- Whatever installs and uninstalls were stopped where, a complete install leaves user and group with the
same id exactly when it finds accounts that it can complete, provided the installs before it did. -/
theorem install_repairs_iff (absent : start.Absent)
    (along : Machine.Along (Directory.change idCommand) (Repairable idCommand) start history)
    (ran : Machine.run (Directory.change idCommand) start history = some directory) :
    (directory.perform (preinstall idCommand directory)).Matched ↔
      Repairable idCommand directory (.install none) := by
  have sound : directory.Sound := by
    refine Machine.run_invariant_along Directory.Sound ?_ absent.sound along ran
    intro state change next kept repairable changed
    exact repairable.sound kept changed
  exact sound.matched_preinstall_iff

/-- An install stopped before the user has its ids, a complete one, a complete uninstall, and an install
stopped after the group is created. -/
def stoppedInstalls : List Change := [.install (some 3), .install none, .uninstall none, .install (some 2)]

theorem install_repairs_iff_stoppedInstalls : ∃ directory,
    Machine.run (Directory.change findsById) oneSystemUser stoppedInstalls = some directory ∧
    directory.group = some { primaryGroupID := some 251 } ∧ directory.user = none ∧
    (directory.perform (preinstall findsById directory)).Matched := by
  have checked : (Machine.run (Directory.change findsById) oneSystemUser stoppedInstalls).map (fun directory =>
      (directory.group, directory.user, decide (Repairable findsById directory (.install none)))) =
      some (some { primaryGroupID := some 251 }, none, true) := by decide +kernel
  obtain ⟨directory, ran, facts⟩ := Option.map_eq_some_iff.mp checked
  simp only [Prod.mk.injEq] at facts
  obtain ⟨group, user, repairable⟩ := facts
  have absent : oneSystemUser.Absent := by decide
  have along : Machine.Along (Directory.change findsById) (Repairable findsById) oneSystemUser stoppedInstalls := by
    decide +kernel
  exact ⟨directory, ran, group, user, (install_repairs_iff absent along ran).mpr (of_decide_eq_true repairable)⟩

/-- An uninstall stopped between its two commands leaves the user; the next install gives the new group
another id. -/
theorem install_keeps_mismatch : oneSystemUser.Absent ∧ ∃ directory,
    Machine.run (Directory.change findsById) oneSystemUser [.install none, .uninstall (some 1), .install none] =
      some directory ∧
    directory.userGroupID = some 251 ∧ directory.groupID = some 252 ∧ ¬ directory.Matched := by
  refine ⟨by decide, ?_⟩
  have checked : (Machine.run (Directory.change findsById) oneSystemUser
      [.install none, .uninstall (some 1), .install none]).map (fun directory =>
        (directory.userGroupID, directory.groupID)) = some (some 251, some 252) := by decide +kernel
  obtain ⟨directory, ran, facts⟩ := Option.map_eq_some_iff.mp checked
  obtain ⟨user, group⟩ := Prod.mk.inj facts
  refine ⟨directory, ran, user, group, ?_⟩
  rintro ⟨gid, mine, yours⟩
  rw [group] at mine
  rw [user] at yours
  cases mine
  cases yours

end Repair

end VmnetBroker
