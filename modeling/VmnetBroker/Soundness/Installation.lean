import VmnetBroker.Proofs.Installation
import VmnetBroker.Soundness.Accounts

/-! # What install and uninstall leave on a host

The scripts may be stopped anywhere, and the host may reboot in between. The uninstall script removes the plist only
when launchd has the service. After an install that was stopped between its files and its bootstrap it leaves the plist
behind, and launchd then starts a program that is gone at every boot. These are all such histories.
-/

namespace VmnetBroker

variable {idCommand : IdCommand} {start final installed settled left : Host} {changes between : List HostChange}
  {unloads : Bool}

/-- launchd can start what it knows throughout a history exactly when no uninstall removes the files of a service that
it still knows. -/
theorem service_stays_startable_iff (safe : start.Safe idCommand)
    (ran : Machine.run (Host.change idCommand) start changes = some final) :
    (∀ earlier later host, changes = earlier ++ later →
      Machine.run (Host.change idCommand) start earlier = some host → host.Safe idCommand) ↔
    Machine.Along (Host.change idCommand) (fun host change => ¬ host.Breaks change) start changes :=
  Machine.run_throughout_iff (Host.Safe idCommand) (fun _ _ _ safe changed => safe.change_iff changed) safe ran

/-- An install stopped before its bootstrap, a complete uninstall, and a reboot. -/
def strandedPlist : List HostChange := [.install true (some 13), .uninstall true none, .reboot]

theorem service_stays_startable_iff_strandedPlist : ∃ final,
    Machine.run (Host.change findsById) {} strandedPlist = some final ∧ final.bootstrapped = true ∧
    final.installDir = none ∧
    ¬ ∀ earlier later host, strandedPlist = earlier ++ later →
      Machine.run (Host.change findsById) {} earlier = some host → host.Safe findsById := by
  have ended : (Machine.run (Host.change findsById) {} strandedPlist).map
      (fun final => (final.bootstrapped, final.installDir)) = some (true, none) := by decide +kernel
  obtain ⟨final, ran, ends⟩ := Option.map_eq_some_iff.mp ended
  obtain ⟨loaded, gone⟩ := Prod.mk.inj ends
  have clean : ({} : Host).Safe findsById := by
    intro known
    simp [Host.Known] at known
  refine ⟨final, ran, loaded, gone, ?_⟩
  rw [service_stays_startable_iff clean ran]
  decide +kernel

/-- A complete installation, after any history without an uninstall. -/
theorem Host.Installed.run (complete : installed.Installed idCommand)
    (kept : ∀ change ∈ between, ∀ unloads stop, change ≠ .uninstall unloads stop)
    (ran : Machine.run (Host.change idCommand) installed between = some settled) :
    settled.Installed idCommand ∧ settled.bootstrapped = between.foldl loadedAfter installed.bootstrapped := by
  induction between generalizing installed with
  | nil =>
    cases ran
    exact ⟨complete, rfl⟩
  | cons change between ih =>
    rw [Machine.run_cons] at ran
    obtain ⟨next, changed, rest⟩ := Option.bind_eq_some_iff.mp ran
    obtain ⟨still, loaded⟩ := complete.change (kept change (List.mem_cons_self ..)) changed
    rw [List.foldl_cons, ← loaded]
    exact ih still (fun other member => kept other (List.mem_cons_of_mem _ member)) rest

/-- An interrupted upgrade, which a reboot repairs. -/
def interruptedUpgrade : List HostChange := [.install true (some 3), .reboot]

/-- Every history of a host is a history of its account: the same installs and uninstalls, complete where the script
is, and otherwise stopped before some account command, whatever else of the script failed. -/
theorem hosts_follow_accounts (ran : Machine.run (Host.change idCommand) start changes = some final) :
    ∃ history, List.Forall₂ HostChange.Projects changes history ∧
      Machine.run (Directory.change idCommand) start.directory history = some final.directory :=
  Machine.run_view Host.directory HostChange.Projects (fun _ _ _ changed => Host.change_directory changed) ran

theorem hosts_follow_accounts_strandedPlist : ∃ final history,
    Machine.run (Host.change findsById) {} strandedPlist = some final ∧
    List.Forall₂ HostChange.Projects strandedPlist history ∧
    Machine.run (Directory.change findsById) {} history = some final.directory := by
  have ended : (Machine.run (Host.change findsById) {} strandedPlist).isSome := by decide +kernel
  obtain ⟨final, ran⟩ := Option.isSome_iff_exists.mp ended
  obtain ⟨history, projects, follows⟩ := hosts_follow_accounts ran
  exact ⟨final, history, ran, projects, follows⟩

end VmnetBroker
