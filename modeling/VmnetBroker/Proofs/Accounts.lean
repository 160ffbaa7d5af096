import VmnetBroker.Model.Accounts
import VmnetBroker.Machine.Run
import VmnetBroker.Machine.Table

/-! # What the account scripts do to the three ids

The account of the broker shows three ids: the group id of its group, and the user id and the primary
group id of its user. Every command has its effect on them stated once, and a stopped script is handled
as a fold over the commands it performed. `Directory.Sound` is what stopped scripts leave behind: group
ids that agree, and no user with a group id and without a user id.
-/

namespace VmnetBroker

/-- The command sets the `PrimaryGroupID` of the user or of the group. -/
def Dscl.writesGroupID : Dscl → Bool
  | .createGroup (some _) => true
  | .createUser (some (.primaryGroupID _)) => true
  | _ => false

/-- The id is one more than the greatest user id in the range, or one. -/
theorem findUniqueId_cases (uniqueIDs : List ℤ) :
    (∀ id ∈ uniqueIDs, ¬ InRange id) ∧ findUniqueId uniqueIDs = 1 ∨
      ∃ last ∈ uniqueIDs, InRange last ∧ (∀ id ∈ uniqueIDs, InRange id → id ≤ last) ∧
        findUniqueId uniqueIDs = last + 1 := by
  have listed (id : ℤ) : id ∈ (uniqueIDs.filter InRange).insertionSort (· ≤ ·) ↔ id ∈ uniqueIDs ∧ InRange id := by
    rw [List.mem_insertionSort, List.mem_filter, decide_eq_true_iff]
  have sorted := List.pairwise_insertionSort (· ≤ ·) (uniqueIDs.filter InRange)
  unfold findUniqueId
  generalize (uniqueIDs.filter InRange).insertionSort (· ≤ ·) = ids at listed sorted
  rcases List.eq_nil_or_concat ids with rfl | ⟨front, last, rfl⟩
  · refine Or.inl ⟨?_, rfl⟩
    intro id member range
    simpa using (listed id).mpr ⟨member, range⟩
  · obtain ⟨member, range⟩ := (listed last).mp (by simp)
    refine Or.inr ⟨last, member, range, ?_, by simp⟩
    intro id other within
    have present := (listed id).mpr ⟨other, within⟩
    rw [List.concat_eq_append] at present sorted
    rcases List.mem_append.mp present with earlier | same
    · exact (List.pairwise_append.mp sorted).2.2 id earlier last (List.mem_singleton_self last)
    · exact (List.mem_singleton.mp same).le

namespace Directory

/-- The `PrimaryGroupID` of the group. -/
def groupID (directory : Directory) : Option ℤ := directory.group.bind (·.primaryGroupID)

/-- The `UniqueID` of the user. -/
def userID (directory : Directory) : Option ℤ := directory.user.bind (·.uniqueID)

/-- The `PrimaryGroupID` of the user. -/
def userGroupID (directory : Directory) : Option ℤ := directory.user.bind (·.primaryGroupID)

/-- A user with a group id has a user id. -/
def Identified (directory : Directory) : Prop :=
  directory.userGroupID.isSome = true → directory.userID.isSome = true

/-- Group ids that are both set agree, and a user with a group id has a user id. -/
structure Sound (directory : Directory) : Prop where
  agree : ∀ mine ∈ directory.groupID, ∀ yours ∈ directory.userGroupID, mine = yours
  identified : directory.Identified

/-- Every group id that is set is this one. -/
def Agrees (directory : Directory) (uniqueId : ℤ) : Prop :=
  (∀ gid ∈ directory.groupID, gid = uniqueId) ∧ ∀ gid ∈ directory.userGroupID, gid = uniqueId

variable {directory : Directory} {command : Dscl} {commands : List Dscl} {uniqueId : ℤ}
  {idCommand : IdCommand}

section Commands

@[simp] theorem group_createGroup (written : Option ℤ) : (directory.dscl (.createGroup written)).group =
    some (written.elim (directory.group.getD {}) (directory.group.getD {}).set) :=
  AList.lookup_insert _

@[simp] theorem user_createUser (written : Option UserAttribute) : (directory.dscl (.createUser written)).user =
    some (written.elim (directory.user.getD {}) (directory.user.getD {}).set) :=
  AList.lookup_insert _

@[simp] theorem group_deleteGroup : (directory.dscl .deleteGroup).group = none := AList.lookup_erase _ _

@[simp] theorem user_deleteUser : (directory.dscl .deleteUser).user = none := AList.lookup_erase _ _

/-- Only a command that names the group id changes it. -/
@[simp] theorem groupID_createGroup (written : Option ℤ) :
    (directory.dscl (.createGroup written)).groupID = written.or directory.groupID := by
  simp only [groupID, group_createGroup, Option.bind_some]
  cases written with
  | none => cases directory.group <;> rfl
  | some id => rfl

@[simp] theorem userID_createGroup (written : Option ℤ) :
    (directory.dscl (.createGroup written)).userID = directory.userID := rfl

@[simp] theorem userGroupID_createGroup (written : Option ℤ) :
    (directory.dscl (.createGroup written)).userGroupID = directory.userGroupID := rfl

@[simp] theorem groupID_createUser (written : Option UserAttribute) :
    (directory.dscl (.createUser written)).groupID = directory.groupID := rfl

@[simp] theorem userID_createUser (written : Option UserAttribute) :
    (directory.dscl (.createUser written)).userID =
      match written with
      | some (.uniqueID id) => some id
      | _ => directory.userID := by
  simp only [userID, user_createUser, Option.bind_some]
  rcases written with _ | (_ | _ | _ | _ | _) <;> cases directory.user <;> rfl

@[simp] theorem userGroupID_createUser (written : Option UserAttribute) :
    (directory.dscl (.createUser written)).userGroupID =
      match written with
      | some (.primaryGroupID id) => some id
      | _ => directory.userGroupID := by
  simp only [userGroupID, user_createUser, Option.bind_some]
  rcases written with _ | (_ | _ | _ | _ | _) <;> cases directory.user <;> rfl

end Commands

section Scripts

@[simp] theorem perform_nil : directory.perform [] = directory := rfl

@[simp] theorem perform_cons :
    directory.perform (command :: commands) = (directory.dscl command).perform commands := rfl

theorem perform_append (first second : List Dscl) :
    directory.perform (first ++ second) = (directory.perform first).perform second :=
  List.foldl_append

/-- What every performed command keeps, a stopped script keeps. -/
theorem perform_invariant (Invariant : Directory → Prop)
    (keep : ∀ state, ∀ command ∈ commands, Invariant state → Invariant (state.dscl command))
    (start : Invariant directory) : Invariant (directory.perform commands) :=
  List.foldlRecOn commands Directory.dscl start fun state kept command member => keep state command member kept

/-- A command that sets no group id keeps a sound account sound. -/
theorem Sound.dscl (sound : directory.Sound) (quiet : command.writesGroupID = false) :
    (directory.dscl command).Sound := by
  obtain ⟨agree, identified⟩ := sound
  cases command with
  | createGroup written =>
    cases written with
    | none => exact ⟨by simpa using agree, identified⟩
    | some id => contradiction
  | createUser written =>
    rcases written with _ | (_ | _ | _ | _ | _)
    case some.primaryGroupID => contradiction
    case some.uniqueID => exact ⟨by simpa using agree, by simp [Identified]⟩
    all_goals exact ⟨by simpa using agree, by simpa [Identified] using identified⟩
  | deleteGroup => exact ⟨by simp [groupID], identified⟩
  | deleteUser => exact ⟨by simp [userGroupID], by simp [Identified, userGroupID]⟩

theorem Sound.perform (sound : directory.Sound) (quiet : ∀ command ∈ commands, command.writesGroupID = false) :
    (directory.perform commands).Sound :=
  perform_invariant Sound (fun _ command member kept => kept.dscl (quiet command member)) sound

/-- The commands that create the group leave the user alone. -/
theorem user_perform_createGroup (sublist : commands ⊆ createGroup uniqueId) :
    (directory.perform commands).user = directory.user := by
  refine perform_invariant (fun state => state.user = directory.user) ?_ rfl
  intro state command member kept
  have created := sublist member
  simp only [createGroup, List.mem_cons, List.not_mem_nil, or_false] at created
  rcases created with rfl | rfl
  · exact kept
  · exact kept

/-- A stage whose test holds issues no commands. -/
theorem stage_subset (present : Bool) (commands : List Dscl) : (if present then [] else commands) ⊆ commands := by
  cases present with
  | false => exact List.Subset.refl _
  | true => exact List.nil_subset _

/-- The user test of `preinstall` does not depend on what happened to the group. -/
theorem preinstall_eq (idCommand : IdCommand) (directory : Directory) : preinstall idCommand directory =
    (if groupExists directory then [] else createGroup (findUniqueId directory.uniqueIDs)) ++
      if userExists idCommand directory then [] else createUser (findUniqueId directory.uniqueIDs) := by
  have same : (directory.perform (if groupExists directory then [] else
      createGroup (findUniqueId directory.uniqueIDs))).user = directory.user :=
    user_perform_createGroup (stage_subset _ _)
  simp only [preinstall, userExists, same]
  rfl

/-- `preinstall` performs no command but those that create the account. -/
theorem preinstall_subset (idCommand : IdCommand) (directory : Directory) : preinstall idCommand directory ⊆
    createGroup (findUniqueId directory.uniqueIDs) ++ createUser (findUniqueId directory.uniqueIDs) := by
  rw [preinstall_eq]
  apply List.append_subset.mpr
  constructor
  · exact List.subset_append_of_subset_left _ (stage_subset _ _)
  · exact List.subset_append_of_subset_right _ (stage_subset _ _)

/-- The commands that create the account set no group id but this one. -/
theorem Agrees.dscl (agrees : directory.Agrees uniqueId)
    (creates : command ∈ createGroup uniqueId ++ createUser uniqueId) :
    (directory.dscl command).Agrees uniqueId := by
  obtain ⟨mine, yours⟩ := agrees
  simp only [createGroup, createUser, List.cons_append, List.nil_append, List.mem_cons, List.not_mem_nil,
    or_false] at creates
  rcases creates with rfl | rfl | rfl | rfl | rfl | rfl | rfl | rfl
  · exact ⟨by simpa using mine, yours⟩
  · exact ⟨by simp, yours⟩
  · exact ⟨mine, by simpa using yours⟩
  · exact ⟨mine, by simpa using yours⟩
  · exact ⟨mine, by simp⟩
  all_goals exact ⟨mine, by simpa using yours⟩

/-- The user id is set before the group id, so a stopped script leaves no user with a group id only. -/
theorem Identified.createUser (identified : directory.Identified) (count : ℕ) :
    (directory.perform ((createUser uniqueId).take count)).Identified := by
  match count with
  | 0 => exact identified
  | 1 => simpa [VmnetBroker.createUser, Identified] using identified
  | count + 2 =>
    intro _
    simp only [VmnetBroker.createUser, List.take_succ_cons, perform_cons]
    refine perform_invariant (fun state => state.userID.isSome = true) ?_ (by simp)
    intro state command member kept
    have created := List.mem_of_mem_take member
    simp only [List.mem_cons, List.not_mem_nil, or_false] at created
    rcases created with rfl | rfl | rfl | rfl
    all_goals simpa using kept

theorem Identified.preinstall (identified : directory.Identified) (idCommand : IdCommand) (count : ℕ) :
    (directory.perform ((preinstall idCommand directory).take count)).Identified := by
  rw [preinstall_eq, List.take_append, perform_append]
  have user : (directory.perform ((if groupExists directory then [] else
      createGroup (findUniqueId directory.uniqueIDs)).take count)).user = directory.user :=
    user_perform_createGroup (List.Subset.trans (List.take_subset _ _) (stage_subset _ _))
  generalize directory.perform ((if groupExists directory then [] else
    createGroup (findUniqueId directory.uniqueIDs)).take count) = middle at user ⊢
  have still : middle.Identified := by
    rw [Identified, userGroupID, userID, user]
    exact identified
  cases userExists idCommand directory with
  | false => exact still.createUser _
  | true =>
    simp only [if_true, List.take_nil]
    exact still

/-- The scripts touch no other user. -/
theorem users_perform (directory : Directory) (commands : List Dscl) {name : String} (other : name ≠ userName) :
    (directory.perform commands).users.lookup name = directory.users.lookup name := by
  refine perform_invariant (fun state => state.users.lookup name = directory.users.lookup name) ?_ rfl
  intro state command _ kept
  rw [← kept]
  cases command with
  | createGroup | deleteGroup => rfl
  | createUser => exact AList.lookup_insert_ne other
  | deleteUser => exact AList.lookup_erase_ne other

/-- The scripts touch no other group. -/
theorem groups_perform (directory : Directory) (commands : List Dscl) {name : String} (other : name ≠ groupName) :
    (directory.perform commands).groups.lookup name = directory.groups.lookup name := by
  refine perform_invariant (fun state => state.groups.lookup name = directory.groups.lookup name) ?_ rfl
  intro state command _ kept
  rw [← kept]
  cases command with
  | createUser | deleteUser => rfl
  | createGroup => exact AList.lookup_insert_ne other
  | deleteGroup => exact AList.lookup_erase_ne other

section Preinstall

/-- A user that `id -u` does not find has no group id. -/
theorem Sound.userGroupID_eq_none (sound : directory.Sound) (missing : userExists idCommand directory = false) :
    directory.userGroupID = none := by
  by_contra set
  have gid := Option.isSome_iff_ne_none.mpr set
  have uid := sound.identified gid
  simp only [userExists, userGroupID, userID] at missing gid uid
  cases found : directory.user with
  | none => simp [found] at gid
  | some record =>
    simp only [found, Option.bind_some, Option.any_some] at missing gid uid
    rw [idCommand.finds_complete record uid gid] at missing
    contradiction

theorem groupID_eq_none (missing : groupExists directory = false) : directory.groupID = none := by
  rw [groupExists, Option.isSome_eq_false_iff, Option.isNone_iff_eq_none] at missing
  rw [groupID, missing]
  rfl

/-- The group that a complete `preinstall` leaves. -/
theorem groupID_preinstall : (directory.perform (preinstall idCommand directory)).groupID =
    if groupExists directory then directory.groupID else some (findUniqueId directory.uniqueIDs) := by
  rw [preinstall_eq]
  cases groupExists directory <;> cases userExists idCommand directory <;> simp [createGroup, createUser]

/-- The user that a complete `preinstall` leaves. -/
theorem userGroupID_preinstall : (directory.perform (preinstall idCommand directory)).userGroupID =
    if userExists idCommand directory then directory.userGroupID else
      some (findUniqueId directory.uniqueIDs) := by
  rw [preinstall_eq]
  cases groupExists directory <;> cases userExists idCommand directory <;> simp [createGroup, createUser]

theorem userID_preinstall : (directory.perform (preinstall idCommand directory)).userID =
    if userExists idCommand directory then directory.userID else some (findUniqueId directory.uniqueIDs) := by
  rw [preinstall_eq]
  cases groupExists directory <;> cases userExists idCommand directory <;> simp [createGroup, createUser]

end Preinstall

end Scripts

end Directory

end VmnetBroker
