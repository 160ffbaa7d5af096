import Mathlib.Data.List.AList
import Mathlib.Data.List.Sort

/-! # The system account (`scripts/common.sh`, `install.sh.in` and `uninstall.sh.in`)

The scripts change the directory of users and groups one `dscl` command at a time. A script that fails,
or is killed, has run a prefix of its commands, and other accounts come and go between two scripts. Service,
file and log commands do not touch the directory and are not modelled; a script that ends in one of them
is a script stopped at that point.
-/

namespace VmnetBroker

/-- The attributes of a user that `preinstall` writes. -/
structure UserRecord where
  uniqueID : Option ℤ := none
  primaryGroupID : Option ℤ := none
  userShell : Option String := none
  realName : Option String := none
  nfsHomeDirectory : Option String := none
deriving DecidableEq, Repr

structure GroupRecord where
  primaryGroupID : Option ℤ := none
deriving DecidableEq, Repr

/-- `/Users` and `/Groups` of the local node. -/
structure Directory where
  users : AList fun _ : String => UserRecord := ∅
  groups : AList fun _ : String => GroupRecord := ∅
deriving DecidableEq

def userName : String := "_vmnetbroker"
def groupName : String := "_vmnetbroker"

namespace Directory

def user (directory : Directory) : Option UserRecord := directory.users.lookup userName

def group (directory : Directory) : Option GroupRecord := directory.groups.lookup groupName

/-- `dscl . -list /Users UniqueID`; a user without the attribute is not listed. -/
def uniqueIDs (directory : Directory) : List ℤ := directory.users.entries.filterMap (·.2.uniqueID)

/-- The ids of the existing groups. -/
def primaryGroupIDs (directory : Directory) : List ℤ := directory.groups.entries.filterMap (·.2.primaryGroupID)

end Directory

/-- The ids that `awk` prints: strictly between the bounds. -/
def InRange (id : ℤ) : Prop := 200 < id ∧ id < 400

instance : DecidablePred InRange := fun id => inferInstanceAs (Decidable (200 < id ∧ id < 400))

/-- Filter, sort, take the last id and add one. The shell reads an empty result as zero. -/
def findUniqueId (uniqueIDs : List ℤ) : ℤ :=
  (((uniqueIDs.filter InRange).insertionSort (· ≤ ·)).getLast?).getD 0 + 1

/-- The users that `id -u` finds. It finds every user with a user id and a primary group id; what it
makes of a user that lacks one of them is left open. -/
structure IdCommand where
  finds : UserRecord → Bool
  finds_complete : ∀ record, record.uniqueID.isSome = true → record.primaryGroupID.isSome = true →
    finds record = true

/-- `dscl . -read /Groups/$group_name` succeeds. -/
def groupExists (directory : Directory) : Bool := directory.group.isSome

/-- `id -u $user_name` succeeds. -/
def userExists (idCommand : IdCommand) (directory : Directory) : Bool := directory.user.any idCommand.finds

inductive UserAttribute where
  | uniqueID (id : ℤ)
  | primaryGroupID (id : ℤ)
  | userShell (path : String)
  | realName (name : String)
  | nfsHomeDirectory (path : String)
deriving DecidableEq, Repr

/-- The `dscl` commands of the two scripts. A `-create` without an attribute creates the bare record. -/
inductive Dscl where
  | createGroup (written : Option ℤ)
  | createUser (written : Option UserAttribute)
  | deleteGroup
  | deleteUser
deriving DecidableEq, Repr

def GroupRecord.set (record : GroupRecord) (id : ℤ) : GroupRecord := { record with primaryGroupID := some id }

def UserRecord.set (record : UserRecord) : UserAttribute → UserRecord
  | .uniqueID id => { record with uniqueID := some id }
  | .primaryGroupID id => { record with primaryGroupID := some id }
  | .userShell path => { record with userShell := some path }
  | .realName name => { record with realName := some name }
  | .nfsHomeDirectory path => { record with nfsHomeDirectory := some path }

/-- An existing record keeps the attributes that a `-create` does not name. -/
def Directory.dscl (directory : Directory) : Dscl → Directory
  | .createGroup written =>
    let record := directory.group.getD {}
    { directory with groups := directory.groups.insert groupName (written.elim record record.set) }
  | .createUser written =>
    let record := directory.user.getD {}
    { directory with users := directory.users.insert userName (written.elim record record.set) }
  | .deleteGroup => { directory with groups := directory.groups.erase groupName }
  | .deleteUser => { directory with users := directory.users.erase userName }

def Directory.perform (directory : Directory) (commands : List Dscl) : Directory :=
  commands.foldl Directory.dscl directory

def createGroup (uniqueId : ℤ) : List Dscl := [.createGroup none, .createGroup (some uniqueId)]

def createUser (uniqueId : ℤ) : List Dscl :=
  [.createUser none, .createUser (some (.uniqueID uniqueId)), .createUser (some (.primaryGroupID uniqueId)),
    .createUser (some (.userShell "/usr/bin/false")), .createUser (some (.realName "Vmnet Broker Daemon")),
    .createUser (some (.nfsHomeDirectory "/var/empty"))]

/-- The commands of `preinstall`: one id, computed before the two tests. -/
def preinstall (idCommand : IdCommand) (directory : Directory) : List Dscl :=
  let uniqueId := findUniqueId directory.uniqueIDs
  let group := if groupExists directory then [] else createGroup uniqueId
  let user := if userExists idCommand (directory.perform group) then [] else createUser uniqueId
  group ++ user

/-- The commands of the uninstall script. -/
def uninstall (idCommand : IdCommand) (directory : Directory) : List Dscl :=
  let group := if groupExists directory then [.deleteGroup] else []
  let user := if userExists idCommand (directory.perform group) then [.deleteUser] else []
  group ++ user

/-- What happens to the directory: a script runs, to its end or for a number of commands, or other
accounts change. -/
inductive Change where
  | install (stop : Option ℕ)
  | uninstall (stop : Option ℕ)
  | others (directory : Directory)
deriving DecidableEq

/-- A complete script, or the commands before it stopped. -/
def performed (commands : List Dscl) : Option ℕ → List Dscl
  | none => commands
  | some count => commands.take count

/-- The directory after a change. Only the scripts touch the account of the broker. -/
def Directory.change (idCommand : IdCommand) (directory : Directory) : Change → Option Directory
  | .install stop => some (directory.perform (performed (preinstall idCommand directory) stop))
  | .uninstall stop => some (directory.perform (performed (uninstall idCommand directory) stop))
  | .others other =>
    if other.user = directory.user ∧ other.group = directory.group then some other else none

end VmnetBroker
