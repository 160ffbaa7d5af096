import Mathlib.Data.Finset.Insert
import VmnetBroker.Machine.Scripts
import VmnetBroker.Model.Accounts

/-! # The installation (`scripts/install.sh.in`, `uninstall.sh.in` and `dist.sh`)

What the scripts leave on a host: the service, its plist, the two directories and the account. A script ends at the
first command that fails or where it is killed, which includes the failed stop of a busy broker before anything is
changed. The archive holds files only and is extracted in the sorted order in which `dist.sh` lists them; any other
command takes effect at once or not at all. The tests of a script look at parts of the host that none of its earlier
commands touches. Owners, modes, log messages and the download are left out.
-/

namespace VmnetBroker

/-- The files of `install_dir`, in the order of the archive. -/
inductive InstalledFile where
  | license
  | uninstall
  | vmnetBroker
deriving DecidableEq, Repr

/-- What there is of the broker: the service in launchd, its plist in `launchd_dir`, the two directories, and the
users and groups. -/
structure Host where
  bootstrapped : Bool := false
  plist : Bool := false
  installDir : Option (Finset InstalledFile) := none
  logDir : Bool := false
  directory : Directory := {}
deriving DecidableEq

inductive HostCommand where
  | bootout
  | dscl (command : Dscl)
  | extract (file : InstalledFile)
  | extractPlist
  | makeLogDir
  | bootstrap
  | removePlist
  | removeInstallDir
  | removeLogDir
deriving DecidableEq

/-- One command. The scripts ignore the failure of a bootout; a service that is bootstrapped already, or has no plist,
cannot be bootstrapped. -/
def Host.execute (unloads : Bool) (host : Host) : HostCommand → Option Host
  | .bootout => some { host with bootstrapped := host.bootstrapped && !unloads }
  | .dscl command => some { host with directory := host.directory.dscl command }
  | .extract file => some { host with installDir := some (insert file (host.installDir.getD ∅)) }
  | .extractPlist => some { host with plist := true }
  | .makeLogDir => some { host with logDir := true }
  | .bootstrap => if host.plist && !host.bootstrapped then some { host with bootstrapped := true } else none
  | .removePlist => some { host with plist := false }
  | .removeInstallDir => some { host with installDir := none }
  | .removeLogDir => some { host with logDir := false }

/-- `install_files`. -/
def installFiles : List HostCommand :=
  [.extract .license, .extract .uninstall, .extract .vmnetBroker, .extractPlist]

def postinstall : List HostCommand := [.makeLogDir, .bootstrap]

/-- `main` of `install.sh`, from `preinstall` on. -/
def installScript (idCommand : IdCommand) (host : Host) : List HostCommand :=
  (if host.bootstrapped then [.bootout] else []) ++ (preinstall idCommand host.directory).map .dscl ++
    (installFiles ++ postinstall)

/-- The commands of `uninstall.sh` after the service. -/
def removals (idCommand : IdCommand) (host : Host) : List HostCommand :=
  (if host.installDir.isSome then [.removeInstallDir] else []) ++
    ((if host.logDir then [.removeLogDir] else []) ++ (uninstall idCommand host.directory).map .dscl)

/-- `uninstall.sh`. -/
def uninstallScript (idCommand : IdCommand) (host : Host) : List HostCommand :=
  (if host.bootstrapped then [.bootout, .removePlist] else []) ++ removals idCommand host

/-- What happens to a host. A bootout of a script succeeds or not; at a reboot, launchd bootstraps every plist of
`launchd_dir`. -/
inductive HostChange where
  | install (unloads : Bool) (stop : Option ℕ)
  | uninstall (unloads : Bool) (stop : Option ℕ)
  | reboot
  | others (directory : Directory)
deriving DecidableEq

/-- The host after a change. Only the scripts touch what belongs to the broker. -/
def Host.change (idCommand : IdCommand) (host : Host) : HostChange → Option Host
  | .install unloads stop =>
    some (Machine.perform (Host.execute unloads) host (Machine.upTo stop (installScript idCommand host))).1
  | .uninstall unloads stop =>
    some (Machine.perform (Host.execute unloads) host (Machine.upTo stop (uninstallScript idCommand host))).1
  | .reboot => some { host with bootstrapped := host.plist }
  | .others other =>
    if other.user = host.directory.user ∧ other.group = host.directory.group then
      some { host with directory := other }
    else none

end VmnetBroker
