import VmnetBroker.Model.Session
import VmnetBroker.Soundness.Agreement
import Mathlib.Data.Set.Insert

/-! # Reserved names

What the broker is for, as seen from outside: peers hold names, and a name that somebody held stays reserved
until the reservation expires. There is no registry, no block, no count and no timer: a reservation may expire
whenever nobody holds the name. `reservations` reads this table off a broker state.
-/

namespace VmnetBroker

/-- The names that each connected peer holds, in the order it was granted them, and the reserved names. -/
@[ext]
structure Reservations where
  held : Connection → Option (List CString)
  reserved : Set CString

/-- What can be seen of one step. -/
inductive Deed where
  | connects (peer : Connection)
  | rejects (peer : Connection)
  | answers (peer : Connection) (name : CString) (status : VmnetBrokerReturn)
  | disconnects (peer : Connection)
  | expires (name : CString)
deriving DecidableEq

namespace Reservations

/-- A peer holds these names, or is gone. -/
def setHeld (table : Reservations) (peer : Connection) (names : Option (List CString)) : Reservations :=
  { table with held := Function.update table.held peer names }

/-- A peer is granted a name. -/
def grant (table : Reservations) (peer : Connection) (names : List CString) (name : CString) : Reservations where
  held := Function.update table.held peer (some (names ++ [name]))
  reserved := insert name table.reserved

section Lemmas

variable {table : Reservations} {peer other : Connection} {names : List CString} {name : CString}

@[simp] theorem setHeld_held_self (held : Option (List CString)) : (table.setHeld peer held).held peer = held :=
  Function.update_self ..

theorem setHeld_held_of_ne (different : other ≠ peer) (held : Option (List CString)) :
    (table.setHeld peer held).held other = table.held other :=
  Function.update_of_ne different ..

@[simp] theorem grant_held_self : (table.grant peer names name).held peer = some (names ++ [name]) :=
  Function.update_self ..

theorem grant_held_of_ne (different : other ≠ peer) :
    (table.grant peer names name).held other = table.held other :=
  Function.update_of_ne different ..

end Lemmas

/-- The step relation. A name that is reserved is granted; one that is not is granted or refused if it is
configured, as the creation of the network turns out. -/
inductive Step (configured : Set CString) (table : Reservations) : Deed → Reservations → Prop
  | connect {peer : Connection} (absent : table.held peer = none) :
      Step configured table (.connects peer) (table.setHeld peer (some []))
  | reject {peer : Connection} {names : List CString} (connected : table.held peer = some names) :
      Step configured table (.rejects peer) table
  | again {peer : Connection} {names : List CString} {name : CString} (connected : table.held peer = some names)
      (mine : name ∈ names) : Step configured table (.answers peer name .success) table
  | full {peer : Connection} {names : List CString} {name : CString} (connected : table.held peer = some names)
      (other : name ∉ names) (full : maxPeerNetworks ≤ names.length) :
      Step configured table (.answers peer name .internalError) table
  | grant {peer : Connection} {names : List CString} {name : CString} (connected : table.held peer = some names)
      (other : name ∉ names) (room : names.length < maxPeerNetworks)
      (offered : name ∈ table.reserved ∨ name ∈ configured) :
      Step configured table (.answers peer name .success) (table.grant peer names name)
  | notFound {peer : Connection} {names : List CString} {name : CString} (connected : table.held peer = some names)
      (other : name ∉ names) (room : names.length < maxPeerNetworks) (free : name ∉ table.reserved)
      (unknown : name ∉ configured) : Step configured table (.answers peer name .notFound) table
  | createFailure {peer : Connection} {names : List CString} {name : CString}
      (connected : table.held peer = some names) (other : name ∉ names) (room : names.length < maxPeerNetworks)
      (free : name ∉ table.reserved) (known : name ∈ configured) :
      Step configured table (.answers peer name .createFailure) table
  | disconnect {peer : Connection} {names : List CString} (connected : table.held peer = some names) :
      Step configured table (.disconnects peer) (table.setHeld peer none)
  | expire {name : CString} (reserved : name ∈ table.reserved)
      (unused : ∀ peer names, table.held peer = some names → name ∉ names) :
      Step configured table (.expires name) { table with reserved := table.reserved \ {name} }

end Reservations

/-- The name in an answer can be made a registry key. -/
def Deed.Convertible : Deed → Prop
  | .answers _ name _ => name.ValidUtf8
  | _ => True

variable {Key : Type} [DecidableEq Key]

/-- The steps of the table that belong to an environment. -/
def Reservations.Acts (env : Environment Key) (table : Reservations) (deed : Deed) (next : Reservations) : Prop :=
  Reservations.Step { name | env.Configured name } table deed next ∧ deed.Convertible

/-- The table of a broker state. -/
def Broker.reservations (env : Environment Key) (broker : Broker Key) : Reservations where
  held peer := (broker.heldNames peer).map List.reduceOption
  reserved := { name | broker.IsRegistered env name }

/-- What can be seen of an event in this state. -/
def Broker.deed (env : Environment Key) (broker : Broker Key) : Event → Option Deed
  | .listener (.connection peer) => some (.connects peer)
  | .peer peer (.dictionary message) calls =>
    match message.acquires with
    | none => some (.rejects peer)
    | some name =>
      match (acquireNetwork env peer name calls 0).run broker with
      | .ok (result, _) => some (.answers peer name (replyStatus (replyBody result)))
      | .error _ => none
  | .peer peer .connectionInvalid _ => some (.disconnects peer)
  | .timer source =>
    match broker.sources.lookup source with
    | some (.removeNetwork network) => (broker.nameAt network).map .expires
    | _ => none
  | _ => none

/-- A step of the broker, by what can be seen of it. -/
def Performs (env : Environment Key) (broker : Broker Key) (deed : Option Deed) (next : Broker Key) : Prop :=
  ∃ event, step env broker event = some next ∧ broker.deed env event = deed

end VmnetBroker
