import VmnetBroker.Model.Installation
import VmnetBroker.Proofs.Accounts

/-! # What the scripts do to a host

A part of a script is handled by a triple over the host: the account stage of `preinstall`, the files, and the removals
of the uninstall script. What launchd may start is `Startable` while the files are being written and removed.
-/

namespace VmnetBroker

variable {idCommand : IdCommand} {directory : Directory} {unloads : Bool} {host state next : Host}
  {command : HostCommand} {script : List HostCommand} {commands : List Dscl}

section Account

theorem preinstall_eq_nil (group : groupExists directory = true) (user : userExists idCommand directory = true) :
    preinstall idCommand directory = [] := by
  rw [Directory.preinstall_eq, if_pos group, if_pos user]
  rfl

/-- Only its own command deletes the group. -/
theorem groupExists_perform (present : groupExists directory = true) (kept : .deleteGroup ∉ commands) :
    groupExists (directory.perform commands) = true := by
  refine Directory.perform_invariant (fun state => groupExists state = true) ?_ present
  intro state command member still
  cases command with
  | createGroup written => simp [groupExists]
  | createUser written => exact still
  | deleteGroup => exact absurd member kept
  | deleteUser => exact still

/-- A complete `preinstall` leaves a group. -/
theorem groupExists_preinstall (idCommand : IdCommand) (directory : Directory) :
    groupExists (directory.perform (preinstall idCommand directory)) = true := by
  have stage (uniqueId : ℤ) : .deleteGroup ∉ if userExists idCommand directory then [] else createUser uniqueId := by
    intro member
    have creates := Directory.stage_subset _ _ member
    simp [createUser] at creates
  rw [Directory.preinstall_eq, Directory.perform_append]
  cases present : groupExists directory with
  | true => exact groupExists_perform present (stage _)
  | false =>
    apply groupExists_perform _ (stage _)
    simp [groupExists, createGroup]

/-- A complete `preinstall` leaves a user that `id -u` finds. -/
theorem userExists_preinstall (idCommand : IdCommand) (directory : Directory) :
    userExists idCommand (directory.perform (preinstall idCommand directory)) = true := by
  have gid := @Directory.userGroupID_preinstall directory idCommand
  have uid := @Directory.userID_preinstall directory idCommand
  cases found : userExists idCommand directory with
  | true =>
    rw [Directory.preinstall_eq, if_pos found, List.append_nil, userExists,
      Directory.user_perform_createGroup (Directory.stage_subset _ _)]
    exact found
  | false =>
    rw [found] at gid uid
    simp only [Bool.false_eq_true, if_false, Directory.userGroupID, Directory.userID] at gid uid
    obtain ⟨record, user, gid⟩ := Option.bind_eq_some_iff.mp gid
    rw [user, Option.bind_some] at uid
    rw [userExists, user, Option.any_some]
    exact idCommand.finds_complete record (by rw [uid]; rfl) (by rw [gid]; rfl)

end Account

/-- The group and the user of the broker are there. -/
structure Directory.HasAccount (idCommand : IdCommand) (directory : Directory) : Prop where
  group : groupExists directory = true
  user : userExists idCommand directory = true

/-- Other users and groups do not matter. -/
theorem Directory.HasAccount.congr {other : Directory} (account : directory.HasAccount idCommand)
    (user : other.user = directory.user) (group : other.group = directory.group) : other.HasAccount idCommand where
  group := by
    rw [groupExists, group]
    exact account.group
  user := by
    rw [userExists, user]
    exact account.user

/-- The program and the account that the plist names are there. -/
structure Host.Startable (idCommand : IdCommand) (host : Host) : Prop where
  account : host.directory.HasAccount idCommand
  program : .vmnetBroker ∈ host.installDir.getD ∅

/-- launchd knows the service, or will after a reboot. -/
def Host.Known (host : Host) : Prop := host.plist = true ∨ host.bootstrapped = true

/-- What launchd knows it can start. -/
def Host.Safe (idCommand : IdCommand) (host : Host) : Prop := host.Known → host.Startable idCommand

theorem Host.Startable.safe (startable : host.Startable idCommand) : host.Safe idCommand := fun _ => startable

/-- The command touches neither the account nor what is in `install_dir` already. -/
def HostCommand.keepsProgram : HostCommand → Bool
  | .dscl _ => false
  | .removeInstallDir => false
  | _ => true

theorem Host.Startable.execute (startable : host.Startable idCommand) (keeps : command.keepsProgram = true)
    (moved : host.execute unloads command = some next) : next.Startable idCommand := by
  obtain ⟨account, program⟩ := startable
  cases command with
  | dscl command => cases keeps
  | removeInstallDir => cases keeps
  | extract file =>
    obtain rfl := Option.some.inj moved
    exact ⟨account, Finset.mem_insert_of_mem program⟩
  | bootstrap =>
    obtain ⟨_, moved⟩ := Option.ite_none_right_eq_some.mp moved
    obtain rfl := Option.some.inj moved
    exact ⟨account, program⟩
  | _ =>
    obtain rfl := Option.some.inj moved
    exact ⟨account, program⟩

/-- A script of such commands. -/
theorem startable_triple (keeps : ∀ command ∈ script, command.keepsProgram = true) :
    Machine.Triple (Host.execute unloads) (Host.Startable idCommand) script (Host.Startable idCommand)
      (Host.Startable idCommand) :=
  Machine.Triple.invariant fun command member _ _ startable moved => startable.execute (keeps command member) moved

theorem Host.safe_of_unknown (unknown : ¬ host.Known) : host.Safe idCommand := fun known => absurd known unknown

section Install

/-- The account commands of a script all succeed, and leave the rest of the host alone. -/
theorem perform_dscl : Machine.perform (Host.execute unloads) host (commands.map .dscl) =
    ({ host with directory := host.directory.perform commands }, true) := by
  induction commands generalizing host with
  | nil => rfl
  | cons command commands ih =>
    rw [List.map_cons, Machine.perform_accepted rfl, ih]
    rfl

/-- The account stage of `preinstall` does nothing to a host that may be started. -/
theorem account_triple : Machine.Triple (Host.execute unloads)
    (fun state => state.Safe idCommand ∧ state.directory = directory) ((preinstall idCommand directory).map .dscl)
    (fun state => state.Safe idCommand ∧ state.directory.HasAccount idCommand) (Host.Safe idCommand) := by
  have still (state : Host) (count : ℕ) (safe : state.Safe idCommand) (known : state.Known) :
      state.directory.perform ((preinstall idCommand state.directory).take count) = state.directory := by
    have startable := safe known
    rw [preinstall_eq_nil startable.account.group startable.account.user, List.take_nil, Directory.perform_nil]
  constructor
  · rintro state count ⟨safe, rfl⟩ known
    rw [← List.map_take, perform_dscl] at known ⊢
    rw [still state count safe known]
    exact safe known
  · rintro state ⟨safe, rfl⟩ -
    rw [perform_dscl]
    refine ⟨?_, groupExists_preinstall _ _, userExists_preinstall _ _⟩
    intro known
    have same := still state (preinstall idCommand state.directory).length safe known
    rw [List.take_length] at same
    rw [same]
    exact safe known

/-- The plist is the last file: when it is there, so is the program. -/
theorem files_triple : Machine.Triple (Host.execute unloads)
    (fun state => state.Safe idCommand ∧ state.directory.HasAccount idCommand) (installFiles ++ postinstall)
    (Host.Startable idCommand) (Host.Safe idCommand) := by
  have extracted (file : InstalledFile) (state next : Host)
      (before : state.Safe idCommand ∧ state.directory.HasAccount idCommand)
      (moved : state.execute unloads (.extract file) = some next) :
      next.Safe idCommand ∧ next.directory.HasAccount idCommand := by
    obtain rfl := Option.some.inj moved
    refine ⟨?_, before.2⟩
    intro known
    exact (before.1 known).execute rfl moved
  have program (state next : Host) (before : state.Safe idCommand ∧ state.directory.HasAccount idCommand)
      (moved : state.execute unloads (.extract .vmnetBroker) = some next) : next.Startable idCommand := by
    obtain rfl := Option.some.inj moved
    exact ⟨before.2, Finset.mem_insert_self _ _⟩
  have later : Machine.Triple (Host.execute unloads) (Host.Startable idCommand)
      [.extractPlist, .makeLogDir, .bootstrap] (Host.Startable idCommand) (Host.Startable idCommand) :=
    startable_triple (by decide)
  apply Machine.Triple.cons (fun _ before => before.1) (extracted .license)
  apply Machine.Triple.cons (fun _ before => before.1) (extracted .uninstall)
  apply Machine.Triple.cons (fun _ before => before.1) program
  exact later.mono (fun _ startable => startable) fun _ startable => startable.safe

/-- Wherever an install ends, launchd can start what it knows. -/
theorem install_triple : Machine.Triple (Host.execute unloads)
    (fun state => state.Safe idCommand ∧ state.directory = host.directory) (installScript idCommand host)
    (Host.Startable idCommand) (Host.Safe idCommand) := by
  have opening : Machine.Triple (Host.execute unloads)
      (fun state => state.Safe idCommand ∧ state.directory = host.directory)
      (if host.bootstrapped then [.bootout] else [])
      (fun state => state.Safe idCommand ∧ state.directory = host.directory) (Host.Safe idCommand) := by
    refine (Machine.Triple.invariant ?_).mono (fun _ before => before) fun _ before => before.1
    intro command member state next before moved
    split at member
    · obtain rfl := List.mem_singleton.mp member
      obtain rfl := Option.some.inj moved
      refine ⟨?_, before.2⟩
      intro known
      have startable := before.1 (known.imp_right fun loaded => (Bool.and_eq_true_iff.mp loaded).1)
      exact startable.execute rfl moved
    · cases member
  exact (opening.append account_triple).append files_triple

end Install

section Uninstall

/-- The uninstall script removes the files while launchd still knows the service. -/
def Host.Breaks (host : Host) : HostChange → Prop
  | .uninstall unloads stop =>
    (if host.bootstrapped then unloads = false else host.plist = true) ∧
      stop.elim True fun count => (if host.bootstrapped then 2 else 0) < count
  | _ => False

instance Host.Breaks.decidable (host : Host) : (change : HostChange) → Decidable (host.Breaks change)
  | .install _ _ => inferInstanceAs (Decidable False)
  | .uninstall unloads none =>
    inferInstanceAs (Decidable ((if host.bootstrapped then unloads = false else host.plist = true) ∧ True))
  | .uninstall unloads (some count) => inferInstanceAs (Decidable
    ((if host.bootstrapped then unloads = false else host.plist = true) ∧ (if host.bootstrapped then 2 else 0) < count))
  | .reboot => inferInstanceAs (Decidable False)
  | .others _ => inferInstanceAs (Decidable False)

/-- The removals do not touch the service, and bring no file back. -/
theorem removals_step (member : command ∈ removals idCommand host) (moved : state.execute unloads command = some next) :
    next.bootstrapped = state.bootstrapped ∧ next.plist = state.plist ∧
      (state.installDir = none → next.installDir = none) := by
  rw [removals, List.mem_append, List.mem_append, List.mem_map] at member
  obtain member | member | ⟨dscl, _, rfl⟩ := member
  · obtain rfl := List.mem_singleton.mp (List.mem_ite_nil_right.mp member).2
    obtain rfl := Option.some.inj moved
    exact ⟨rfl, rfl, fun _ => rfl⟩
  · obtain rfl := List.mem_singleton.mp (List.mem_ite_nil_right.mp member).2
    obtain rfl := Option.some.inj moved
    exact ⟨rfl, rfl, id⟩
  · obtain rfl := Option.some.inj moved
    exact ⟨rfl, rfl, id⟩

/-- A service that launchd does not know stays unknown. -/
theorem removals_triple : Machine.Triple (Host.execute unloads) (fun state => ¬ state.Known)
    (removals idCommand host) (fun state => ¬ state.Known) (fun state => ¬ state.Known) := by
  apply Machine.Triple.invariant
  intro command member state next unknown moved
  obtain ⟨loaded, plist, _⟩ := removals_step member moved
  rw [Host.Known, loaded, plist]
  exact unknown

theorem uninstallScript_loaded (loaded : host.bootstrapped = true) :
    uninstallScript idCommand host = [.bootout, .removePlist] ++ removals idCommand host := by
  rw [uninstallScript, if_pos loaded]

theorem uninstallScript_unloaded (unloaded : host.bootstrapped = false) :
    uninstallScript idCommand host = removals idCommand host := by
  rw [uninstallScript, unloaded]
  rfl

/-- An uninstall that makes launchd forget the service before it removes the files. -/
theorem uninstall_triple (safe : host.Safe idCommand)
    (forgets : if host.bootstrapped then unloads = true else host.plist = false) :
    Machine.Triple (Host.execute unloads) (fun state => state = host) (uninstallScript idCommand host)
      (fun state => ¬ state.Known) (Host.Safe idCommand) := by
  have later : Machine.Triple (Host.execute unloads) (fun state => ¬ state.Known) (removals idCommand host)
      (fun state => ¬ state.Known) (Host.Safe idCommand) :=
    removals_triple.mono (fun _ unknown => unknown) fun _ unknown => Host.safe_of_unknown unknown
  cases loaded : host.bootstrapped with
  | true =>
    rw [loaded, if_pos rfl] at forgets
    rw [uninstallScript_loaded loaded]
    have startable := safe (.inr loaded)
    have booted (state next : Host) (before : state = host) (moved : state.execute unloads .bootout = some next) :
        next.bootstrapped = false ∧ next.Startable idCommand := by
      subst before
      refine ⟨?_, startable.execute rfl moved⟩
      obtain rfl := Option.some.inj moved
      rw [forgets, Bool.not_true, Bool.and_false]
    have forgotten (state next : Host) (before : state.bootstrapped = false ∧ state.Startable idCommand)
        (moved : state.execute unloads .removePlist = some next) : ¬ next.Known := by
      obtain rfl := Option.some.inj moved
      simp [Host.Known, before.1]
    have opening : Machine.Triple (Host.execute unloads) (fun state => state = host) [.bootout, .removePlist]
        (fun state => ¬ state.Known) (Host.Safe idCommand) := by
      refine .cons (fun state before => before ▸ safe) booted (.cons (fun state before => before.2.safe) forgotten ?_)
      exact .nil (fun _ unknown => unknown) fun _ unknown => Host.safe_of_unknown unknown
    exact opening.append later
  | false =>
    rw [loaded, if_neg Bool.false_ne_true] at forgets
    rw [uninstallScript_unloaded loaded]
    refine later.mono ?_ fun _ safe => safe
    rintro state rfl
    simp [Host.Known, loaded, forgets]

/-- Until the files are removed, launchd can start what it knows. -/
theorem uninstall_early (safe : host.Safe idCommand) {count : ℕ} (early : count ≤ if host.bootstrapped then 2 else 0) :
    (Machine.perform (Host.execute unloads) host ((uninstallScript idCommand host).take count)).1.Safe idCommand := by
  cases loaded : host.bootstrapped with
  | true =>
    rw [loaded] at early
    rw [uninstallScript_loaded loaded, List.take_append_of_le_length early]
    have opening : Machine.Triple (Host.execute unloads) (Host.Startable idCommand) [.bootout, .removePlist]
        (Host.Startable idCommand) (Host.Startable idCommand) := startable_triple (by decide)
    exact (opening.stopped host count (safe (.inr loaded))).safe
  | false =>
    rw [loaded] at early
    rw [Nat.le_zero.mp early, List.take_zero]
    exact safe

/-- The removals leave a known service known, and bring no program back. -/
theorem removals_broken {rest : List HostCommand} (part : ∀ command ∈ rest, command ∈ removals idCommand host)
    (known : state.Known) (gone : state.installDir = none) (count : ℕ) :
    ¬ (Machine.perform (Host.execute unloads) state (rest.take count)).1.Safe idCommand := by
  have broken : Machine.Triple (Host.execute unloads) (fun state => state.Known ∧ state.installDir = none) rest
      (fun state => state.Known ∧ state.installDir = none) fun state => state.Known ∧ state.installDir = none := by
    apply Machine.Triple.invariant
    intro command member state next before moved
    obtain ⟨loaded, plist, gone⟩ := removals_step (part command member) moved
    rw [Host.Known, loaded, plist]
    exact ⟨before.1, gone before.2⟩
  obtain ⟨known, gone⟩ := broken.stopped state count ⟨known, gone⟩
  intro safe
  have program := (safe known).program
  rw [gone] at program
  cases program

/-- From the first removal on, a service that is still known has lost its program. -/
theorem uninstall_late (safe : host.Safe idCommand)
    (known : if host.bootstrapped then unloads = false else host.plist = true) (count : ℕ) :
    ¬ (Machine.perform (Host.execute unloads) host
      ((uninstallScript idCommand host).take ((if host.bootstrapped then 2 else 0) + 1 + count))).1.Safe idCommand := by
  have startable : host.Startable idCommand := by
    apply safe
    split at known
    · next loaded => exact .inr loaded
    · exact .inl known
  obtain ⟨rest, split⟩ : ∃ rest, removals idCommand host = .removeInstallDir :: rest := by
    have program := startable.program
    cases present : host.installDir with
    | none =>
      rw [present] at program
      cases program
    | some files => exact ⟨_, by rw [removals, present]; rfl⟩
  have part (command : HostCommand) (member : command ∈ rest) : command ∈ removals idCommand host := by
    rw [split]
    exact List.mem_cons_of_mem _ member
  cases loaded : host.bootstrapped with
  | true =>
    rw [loaded, if_pos rfl] at known
    rw [uninstallScript_loaded loaded, split, if_pos rfl, Nat.add_comm (2 + 1) count]
    simp only [List.cons_append, List.nil_append, List.take_succ_cons]
    rw [Machine.perform_accepted rfl, Machine.perform_accepted rfl, Machine.perform_accepted rfl]
    exact removals_broken part (.inr (by simp [loaded, known])) rfl count
  | false =>
    rw [loaded, if_neg Bool.false_ne_true] at known
    rw [uninstallScript_unloaded loaded, split, if_neg Bool.false_ne_true, Nat.add_comm (0 + 1) count]
    rw [List.take_succ_cons, Machine.perform_accepted rfl]
    have still : ({ host with installDir := none } : Host).Known := .inl known
    exact removals_broken part still rfl count

/-- A change keeps what launchd knows startable exactly if it does not break it. -/
theorem Host.Safe.change_iff (safe : host.Safe idCommand) {change : HostChange}
    (changed : host.change idCommand change = some next) : next.Safe idCommand ↔ ¬ host.Breaks change := by
  cases change with
  | install unloads stop =>
    obtain rfl := Option.some.inj changed
    exact iff_of_true (install_triple.ends ⟨safe, rfl⟩ stop) id
  | reboot =>
    obtain rfl := Option.some.inj changed
    refine iff_of_true ?_ id
    intro known
    have startable := safe (.inl (known.elim id id))
    exact ⟨startable.account, startable.program⟩
  | others other =>
    obtain ⟨⟨user, group⟩, moved⟩ := Option.ite_none_right_eq_some.mp changed
    obtain rfl := Option.some.inj moved
    refine iff_of_true ?_ id
    intro known
    obtain ⟨account, program⟩ := safe known
    exact ⟨account.congr user group, program⟩
  | uninstall unloads stop =>
    obtain rfl := Option.some.inj changed
    by_cases known : if host.bootstrapped then unloads = false else host.plist = true
    · rw [Host.Breaks, and_iff_right known]
      have late := @uninstall_late _ unloads _ safe known
      cases stop with
      | none =>
        have whole := late (uninstallScript idCommand host).length
        rw [List.take_of_length_le (Nat.le_add_left _ _)] at whole
        exact iff_of_false whole (not_not.mpr trivial)
      | some count =>
        by_cases early : count ≤ if host.bootstrapped then 2 else 0
        · exact iff_of_true (uninstall_early safe early) (not_lt.mpr early)
        · obtain ⟨more, rfl⟩ := Nat.exists_eq_add_of_lt (not_le.mp early)
          rw [Nat.add_right_comm] at early ⊢
          exact iff_of_false (late more) (not_not.mpr (not_le.mp early))
    · refine iff_of_true ?_ fun breaks => known breaks.1
      have forgets : if host.bootstrapped then unloads = true else host.plist = false := by
        cases loaded : host.bootstrapped <;> simpa [loaded] using known
      exact (uninstall_triple safe forgets).ends rfl stop

end Uninstall

/-- The files that the archive has for `install_dir`. -/
def archiveFiles : Finset InstalledFile := {.license, .uninstall, .vmnetBroker}

/-- Everything that an install leaves, the service in launchd apart. -/
structure Host.Installed (idCommand : IdCommand) (host : Host) : Prop where
  plist : host.plist = true
  files : host.installDir = some archiveFiles
  logDir : host.logDir = true
  account : host.directory.HasAccount idCommand

/-- Nothing of the broker is left. -/
structure Host.Vacant (host : Host) : Prop where
  service : host.bootstrapped = false
  plist : host.plist = false
  installDir : host.installDir = none
  logDir : host.logDir = false
  user : host.directory.user = none
  group : host.directory.group = none

section Complete

/-- The archive and `postinstall`, on any host. A service that is still loaded cannot be bootstrapped. -/
theorem perform_files : Machine.perform (Host.execute unloads) host (installFiles ++ postinstall) =
    ({ host with bootstrapped := true, plist := true, installDir := some archiveFiles, logDir := true },
      !host.bootstrapped) := by
  have all (files : Finset InstalledFile) : insert .vmnetBroker (insert .uninstall (insert .license files)) = archiveFiles := by
    ext file
    cases file <;> simp [archiveFiles]
  rw [installFiles, postinstall]
  simp only [List.cons_append, List.nil_append]
  rw [Machine.perform_accepted rfl, Machine.perform_accepted rfl, Machine.perform_accepted rfl,
    Machine.perform_accepted rfl, Machine.perform_accepted rfl]
  simp only [Option.getD_some, all]
  cases loaded : host.bootstrapped with
  | true => rw [Machine.perform_refused rfl]; rfl
  | false => rw [Machine.perform_accepted rfl]; rfl

/-- An install to its end. -/
theorem perform_install : Machine.perform (Host.execute unloads) host (installScript idCommand host) =
    ({ bootstrapped := true, plist := true, installDir := some archiveFiles, logDir := true,
       directory := host.directory.perform (preinstall idCommand host.directory) },
      !(host.bootstrapped && !unloads)) := by
  rw [installScript, Machine.perform_append, Machine.perform_append]
  cases loaded : host.bootstrapped with
  | true =>
    rw [if_pos rfl, Machine.perform_accepted rfl, Machine.perform_nil, if_pos rfl, perform_dscl, if_pos rfl,
      perform_files]
    simp [loaded]
  | false =>
    rw [if_neg Bool.false_ne_true, Machine.perform_nil, if_pos rfl, perform_dscl, if_pos rfl, perform_files]
    simp [loaded]

/-- The removals to their end. -/
theorem perform_removals : Machine.perform (Host.execute unloads) state (removals idCommand host) =
    ({ state with
        installDir := if host.installDir.isSome then none else state.installDir
        logDir := if host.logDir then false else state.logDir
        directory := state.directory.perform (uninstall idCommand host.directory) }, true) := by
  rw [removals, Machine.perform_append, Machine.perform_append]
  cases host.installDir.isSome <;> cases host.logDir <;> simp [Machine.perform, Host.execute, perform_dscl]

/-- An uninstall to its end. -/
theorem perform_uninstall : Machine.perform (Host.execute unloads) host (uninstallScript idCommand host) =
    ({ bootstrapped := host.bootstrapped && !unloads, plist := host.plist && !host.bootstrapped, installDir := none,
       logDir := false, directory := host.directory.perform (uninstall idCommand host.directory) }, true) := by
  have gone : (if host.installDir.isSome then none else host.installDir) = none := by
    cases host.installDir <;> rfl
  have logs : (if host.logDir then false else host.logDir) = false := by
    cases host.logDir <;> rfl
  cases loaded : host.bootstrapped with
  | true =>
    rw [uninstallScript_loaded loaded, Machine.perform_append, Machine.perform_accepted rfl,
      Machine.perform_accepted rfl, Machine.perform_nil, if_pos rfl, perform_removals]
    simp [gone, logs, loaded]
  | false =>
    rw [uninstallScript_unloaded loaded, perform_removals]
    simp [gone, logs, loaded]

/-- The uninstall script removes an account that is there. -/
theorem uninstall_account (account : directory.HasAccount idCommand) :
    uninstall idCommand directory = [.deleteGroup, .deleteUser] := by
  rw [uninstall, if_pos account.group]
  exact congrArg _ (if_pos account.user)

end Complete

section Installed

/-- Whether launchd has the service after a change to a complete installation that is not removed. An install unloads it
if it ends between its bootout and its bootstrap. -/
def loadedAfter (loaded : Bool) : HostChange → Bool
  | .install unloads stop =>
    stop.elim true fun count => if loaded then decide (count = 0) || !unloads || decide (7 ≤ count) else decide (6 ≤ count)
  | .uninstall _ _ => loaded
  | .reboot => true
  | .others _ => loaded

/-- A complete install, on any host. -/
theorem installed_install : (Machine.perform (Host.execute unloads) host (installScript idCommand host)).1.Installed
    idCommand := by
  rw [perform_install]
  exact ⟨rfl, rfl, rfl, groupExists_preinstall _ _, userExists_preinstall _ _⟩

namespace Host.Installed

/-- The service may come and go. -/
theorem loaded (installed : host.Installed idCommand) (bootstrapped : Bool) :
    ({ host with bootstrapped := bootstrapped } : Host).Installed idCommand :=
  ⟨installed.plist, installed.files, installed.logDir, installed.account⟩

/-- What is in place is only written again. -/
theorem execute (installed : host.Installed idCommand) (member : command ∈ installFiles ++ [.makeLogDir]) :
    host.execute unloads command = some host := by
  obtain ⟨bootstrapped, plist, installDir, logDir, directory⟩ := host
  obtain ⟨rfl, rfl, rfl, -⟩ := installed
  simp only [installFiles, List.cons_append, List.nil_append, List.mem_cons, List.not_mem_nil, or_false] at member
  rcases member with rfl | rfl | rfl | rfl | rfl
  all_goals rfl

/-- The end of an install that finds everything in place only bootstraps the service. -/
theorem perform_take (installed : host.Installed idCommand) (count : ℕ) :
    (Machine.perform (Host.execute unloads) host ((installFiles ++ postinstall).take count)).1 =
      { host with bootstrapped := host.bootstrapped || decide (6 ≤ count) } := by
  by_cases early : count ≤ 5
  · have idle : Machine.perform (Host.execute unloads) host ((installFiles ++ [HostCommand.makeLogDir]).take count) =
        (host, true) := Machine.perform_idle fun command member => installed.execute (List.mem_of_mem_take member)
    have stopped : (installFiles ++ postinstall).take count =
        (installFiles ++ [HostCommand.makeLogDir]).take count := by
      rw [show installFiles ++ postinstall = installFiles ++ [HostCommand.makeLogDir] ++ [.bootstrap] from rfl,
        List.take_append_of_le_length early]
    rw [stopped, idle, decide_eq_false (by omega), Bool.or_false]
  · have whole : (installFiles ++ postinstall).length ≤ count := by
      have six : (installFiles ++ postinstall).length = 6 := rfl
      omega
    rw [List.take_of_length_le whole, perform_files, decide_eq_true (by omega), Bool.or_true]
    obtain ⟨bootstrapped, plist, installDir, logDir, directory⟩ := host
    obtain ⟨rfl, rfl, rfl, -⟩ := installed
    rfl

/-- Installs, reboots and other accounts leave a complete installation complete. -/
theorem change (installed : host.Installed idCommand) {change : HostChange}
    (kept : ∀ unloads stop, change ≠ .uninstall unloads stop) (changed : host.change idCommand change = some next) :
    next.Installed idCommand ∧ next.bootstrapped = loadedAfter host.bootstrapped change := by
  cases change with
  | install unloads stop =>
    obtain rfl := Option.some.inj changed
    cases stop with
    | none =>
      refine ⟨installed_install, ?_⟩
      rw [Machine.upTo, Option.elim_none, perform_install]
      rfl
    | some count =>
      have still : preinstall idCommand host.directory = [] :=
        preinstall_eq_nil installed.account.group installed.account.user
      rw [Machine.upTo, Option.elim_some, installScript, still, List.map_nil, List.append_nil]
      cases loaded : host.bootstrapped with
      | true =>
        rw [if_pos rfl]
        cases count with
        | zero => exact ⟨installed, loaded⟩
        | succ count =>
          rw [List.cons_append, List.nil_append, List.take_succ_cons, Machine.perform_accepted rfl,
            (installed.loaded _).perform_take]
          refine ⟨installed.loaded _, ?_⟩
          simp [loaded, loadedAfter]
      | false =>
        rw [if_neg Bool.false_ne_true, List.nil_append, installed.perform_take]
        refine ⟨installed.loaded _, ?_⟩
        simp [loaded, loadedAfter]
  | uninstall unloads stop => exact absurd rfl (kept unloads stop)
  | reboot =>
    obtain rfl := Option.some.inj changed
    exact ⟨installed.loaded _, installed.plist⟩
  | others other =>
    obtain ⟨⟨user, group⟩, moved⟩ := Option.ite_none_right_eq_some.mp changed
    obtain rfl := Option.some.inj moved
    refine ⟨⟨installed.plist, installed.files, installed.logDir, ?_⟩, rfl⟩
    exact installed.account.congr user group

end Host.Installed

end Installed

section Projection

/-- The part of a command that is about the account. -/
def HostCommand.account : HostCommand → Option Dscl
  | .dscl command => some command
  | _ => none

/-- The change of the account that is made by a change of the host. -/
inductive HostChange.Projects : HostChange → Change → Prop
  | install (unloads : Bool) : Projects (.install unloads none) (.install none)
  | stoppedInstall (unloads : Bool) (stop count : ℕ) : Projects (.install unloads (some stop)) (.install (some count))
  | uninstall (unloads : Bool) : Projects (.uninstall unloads none) (.uninstall none)
  | stoppedUninstall (unloads : Bool) (stop count : ℕ) :
      Projects (.uninstall unloads (some stop)) (.uninstall (some count))
  | reboot (directory : Directory) : Projects .reboot (.others directory)
  | others (directory : Directory) : Projects (.others directory) (.others directory)

/-- Wherever a script ends, it has performed the first of its account commands. -/
theorem perform_directory (host : Host) (script : List HostCommand) :
    ∃ count, (Machine.perform (Host.execute unloads) host script).1.directory =
      host.directory.perform ((script.filterMap HostCommand.account).take count) := by
  induction script generalizing host with
  | nil => exact ⟨0, rfl⟩
  | cons command script ih =>
    cases accepted : host.execute unloads command with
    | none =>
      refine ⟨0, ?_⟩
      rw [Machine.perform_refused accepted]
      rfl
    | some next =>
      obtain ⟨count, performed⟩ := ih next
      rw [Machine.perform_accepted accepted, performed]
      cases command with
      | dscl command =>
        obtain rfl := Option.some.inj accepted
        exact ⟨count + 1, rfl⟩
      | bootstrap =>
        obtain ⟨_, moved⟩ := Option.ite_none_right_eq_some.mp accepted
        obtain rfl := Option.some.inj moved
        exact ⟨count, rfl⟩
      | _ =>
        obtain rfl := Option.some.inj accepted
        exact ⟨count, rfl⟩

/-- A stopped script has performed the first of its account commands. -/
theorem perform_take_directory (host : Host) (script : List HostCommand) (stop : ℕ) :
    ∃ count, (Machine.perform (Host.execute unloads) host (script.take stop)).1.directory =
      host.directory.perform ((script.filterMap HostCommand.account).take count) := by
  obtain ⟨count, performed⟩ := @perform_directory unloads host (script.take stop)
  have first := List.prefix_iff_eq_take.mp ((List.take_prefix stop script).filterMap HostCommand.account)
  rw [first, List.take_take] at performed
  exact ⟨_, performed⟩

theorem account_dscl (commands : List Dscl) : (commands.map .dscl).filterMap HostCommand.account = commands := by
  rw [List.filterMap_map]
  exact List.filterMap_some

theorem account_installScript : (installScript idCommand host).filterMap HostCommand.account =
    preinstall idCommand host.directory := by
  rw [installScript, List.filterMap_append, List.filterMap_append, account_dscl]
  cases host.bootstrapped <;> simp [HostCommand.account, installFiles, postinstall, List.filterMap_cons]

theorem account_uninstallScript : (uninstallScript idCommand host).filterMap HostCommand.account =
    uninstall idCommand host.directory := by
  rw [uninstallScript, removals, List.filterMap_append, List.filterMap_append, List.filterMap_append, account_dscl]
  cases host.bootstrapped <;> cases host.installDir.isSome <;> cases host.logDir <;>
    simp [HostCommand.account, List.filterMap_cons]

/-- What a change does to the account of a host is a change of the account. -/
theorem Host.change_directory {change : HostChange} (changed : host.change idCommand change = some next) :
    ∃ account, change.Projects account ∧ host.directory.change idCommand account = some next.directory := by
  cases change with
  | install unloads stop =>
    obtain rfl := Option.some.inj changed
    cases stop with
    | none =>
      refine ⟨_, .install unloads, ?_⟩
      rw [Machine.upTo, Option.elim_none, perform_install]
      rfl
    | some stop =>
      obtain ⟨count, performed⟩ := @perform_take_directory unloads host (installScript idCommand host) stop
      rw [account_installScript] at performed
      exact ⟨_, .stoppedInstall unloads stop count, congrArg some performed.symm⟩
  | uninstall unloads stop =>
    obtain rfl := Option.some.inj changed
    cases stop with
    | none =>
      refine ⟨_, .uninstall unloads, ?_⟩
      rw [Machine.upTo, Option.elim_none, perform_uninstall]
      rfl
    | some stop =>
      obtain ⟨count, performed⟩ := @perform_take_directory unloads host (uninstallScript idCommand host) stop
      rw [account_uninstallScript] at performed
      exact ⟨_, .stoppedUninstall unloads stop count, congrArg some performed.symm⟩
  | reboot =>
    obtain rfl := Option.some.inj changed
    exact ⟨_, .reboot host.directory, if_pos ⟨rfl, rfl⟩⟩
  | others other =>
    obtain ⟨same, moved⟩ := Option.ite_none_right_eq_some.mp changed
    obtain rfl := Option.some.inj moved
    exact ⟨_, .others other, if_pos same⟩

end Projection

section Others

/-- The directories have the same users and groups beside the account of the broker. -/
structure Directory.SameOthers (left right : Directory) : Prop where
  users : ∀ name ≠ userName, left.users.lookup name = right.users.lookup name
  groups : ∀ name ≠ groupName, left.groups.lookup name = right.groups.lookup name

namespace Directory.SameOthers

variable {left middle right : Directory}

theorem refl (directory : Directory) : directory.SameOthers directory := ⟨fun _ _ => rfl, fun _ _ => rfl⟩

theorem trans (first : left.SameOthers middle) (second : middle.SameOthers right) : left.SameOthers right where
  users name other := (first.users name other).trans (second.users name other)
  groups name other := (first.groups name other).trans (second.groups name other)

/-- Account commands concern the account of the broker only. -/
theorem perform (directory : Directory) (commands : List Dscl) :
    (directory.perform commands).SameOthers directory where
  users _ other := Directory.users_perform _ _ other
  groups _ other := Directory.groups_perform _ _ other

end Directory.SameOthers

/-- The directory that the other users and groups are those of after a change: only a change of others sets it. -/
def othersAfter (directory : Directory) : HostChange → Directory
  | .others other => other
  | _ => directory

namespace Directory.SameOthers

theorem change {left right : Directory} (same : left.SameOthers right) (change : HostChange) :
    (othersAfter left change).SameOthers (othersAfter right change) := by
  cases change with
  | others other => exact .refl other
  | install | uninstall | reboot => exact same

/-- The same changes of others leave the same other users and groups. -/
theorem foldl {left right : Directory} (same : left.SameOthers right) (changes : List HostChange) :
    (changes.foldl othersAfter left).SameOthers (changes.foldl othersAfter right) := by
  induction changes generalizing left right with
  | nil => exact same
  | cons change changes ih => exact ih (same.change change)

end Directory.SameOthers

/-- Wherever a script ends, it has touched no other user or group. -/
theorem perform_others (host : Host) (script : List HostCommand) :
    (Machine.perform (Host.execute unloads) host script).1.directory.SameOthers host.directory := by
  obtain ⟨count, performed⟩ := @perform_directory unloads host script
  rw [performed]
  exact .perform _ _

/-- A change touches the other users and groups only as `othersAfter` says. -/
theorem Host.change_others {change : HostChange} (changed : host.change idCommand change = some next) :
    next.directory.SameOthers (othersAfter host.directory change) := by
  cases change with
  | install unloads stop =>
    obtain rfl := Option.some.inj changed
    exact perform_others host _
  | uninstall unloads stop =>
    obtain rfl := Option.some.inj changed
    exact perform_others host _
  | reboot =>
    obtain rfl := Option.some.inj changed
    exact .refl _
  | others other =>
    obtain ⟨_, moved⟩ := Option.ite_none_right_eq_some.mp changed
    obtain rfl := Option.some.inj moved
    exact .refl _

/-- The other users and groups at the end of a history are those of the last change of others, or of its start. -/
theorem Host.run_others {changes : List HostChange} {final : Host}
    (ran : Machine.run (Host.change idCommand) host changes = some final) :
    final.directory.SameOthers (changes.foldl othersAfter host.directory) := by
  refine Machine.run_history
    (fun changes state => state.directory.SameOthers (changes.foldl othersAfter host.directory)) (.refl _) ?_ ran
  intro changes middle change target _ before changed
  rw [List.foldl_append]
  exact (Host.change_others changed).trans (before.change change)

end Others

end VmnetBroker
