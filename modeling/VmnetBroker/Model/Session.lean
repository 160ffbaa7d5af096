import VmnetBroker.Model.Client

/-! # A peer's view of the broker

What a connection is for, without registry, blocks, counts and timers: a peer holds a list of names,
asks for more, and is told a status. Whether a name can be had at all is a policy that does not
depend on the other peers. The broker is shown to follow one such session for each connection.
-/

namespace VmnetBroker

/-- What one connection does. -/
inductive Action where
  | connect
  | request (message : Message)
  | disconnect
deriving DecidableEq

/-- The connection that acts in an event, and its action. -/
def Event.action : Event → Option (Connection × Action)
  | .listener (.connection sender) => some (sender, .connect)
  | .peer sender (.dictionary message) _ => some (sender, .request message)
  | .peer sender .connectionInvalid _ => some (sender, .disconnect)
  | _ => none

/-- The names a connected peer holds, the names it was ever granted, and the statuses it was sent. -/
structure Session where
  held : Option (List CString) := none
  granted : List CString := []
  statuses : List VmnetBrokerReturn := []
deriving DecidableEq

/-- The status of an acquire by a peer that holds these names. -/
def verdict (policy : CString → VmnetBrokerReturn) (held : List CString) (name : CString) : VmnetBrokerReturn :=
  if name ∈ held then .success
  else if maxPeerNetworks ≤ held.length then .internalError
  else policy name

section Verdict

variable {policy : CString → VmnetBrokerReturn} {held : List CString} {name : CString}

theorem verdict_held (mine : name ∈ held) : verdict policy held name = .success := if_pos mine

theorem verdict_full (other : name ∉ held) (full : maxPeerNetworks ≤ held.length) :
    verdict policy held name = .internalError := by
  rw [verdict, if_neg other, if_pos full]

theorem verdict_room (other : name ∉ held) (room : held.length < maxPeerNetworks) :
    verdict policy held name = policy name := by
  rw [verdict, if_neg other, if_neg (not_le.mpr room)]

end Verdict

namespace Session

/-- Only a message with a return address is told its status. -/
def tell (session : Session) (message : Message) (status : VmnetBrokerReturn) : Session :=
  { session with statuses := session.statuses ++ if message.replyContext then [status] else [] }

/-- Hold one more name, unless it is held already. -/
def grant (session : Session) (held : List CString) (name : CString) : Session :=
  { session with
    held := some (if name ∈ held then held else held ++ [name])
    granted := name :: session.granted }

/-- A request of a connected peer. -/
def ask (policy : CString → VmnetBrokerReturn) (session : Session) (held : List CString) (message : Message) :
    Session :=
  match message.acquires with
  | none => session.tell message .invalidRequest
  | some name =>
    let told := session.tell message (verdict policy held name)
    if verdict policy held name = .success then told.grant held name else told

def act (policy : CString → VmnetBrokerReturn) (session : Session) : Action → Session
  | .connect => { session with held := some [] }
  | .request message => session.held.elim session fun held => session.ask policy held message
  | .disconnect => { session with held := none }

variable {policy : CString → VmnetBrokerReturn} {session : Session} {held : List CString} {message : Message}
  {name : CString}

theorem act_request (connected : session.held = some held) :
    session.act policy (.request message) = session.ask policy held message := by
  rw [act, connected, Option.elim_some]

theorem ask_malformed (rejected : message.acquires = none) :
    session.ask policy held message = session.tell message .invalidRequest := by
  rw [ask, rejected]

theorem ask_granted (requested : message.acquires = some name) (granted : verdict policy held name = .success) :
    session.ask policy held message = (session.tell message .success).grant held name := by
  simp only [ask, requested, granted, if_true]

theorem ask_refused (requested : message.acquires = some name) (refused : verdict policy held name ≠ .success) :
    session.ask policy held message = session.tell message (verdict policy held name) := by
  simp only [ask, requested, refused, if_false]

end Session

/-- The policy of a table of networks whose creation succeeds or fails by name. -/
def Environment.policy {Key : Type} (env : Environment Key) (creatable : CString → Bool) (name : CString) :
    VmnetBrokerReturn :=
  match env.networks.find? (·.name = name) with
  | none => .notFound
  | some _ => if creatable name then .success else .createFailure

theorem Environment.policy_configured {Key : Type} {env : Environment Key} {name : CString}
    {config : NetworkConfig} (creatable : CString → Bool)
    (configured : env.networks.find? (·.name = name) = some config) :
    env.policy creatable name = if creatable name then .success else .createFailure := by
  rw [Environment.policy, configured]

theorem Environment.policy_unconfigured {Key : Type} {env : Environment Key} {name : CString}
    (creatable : CString → Bool) (missing : ¬ env.Configured name) : env.policy creatable name = .notFound := by
  cases found : env.networks.find? (·.name = name) with
  | none => rw [Environment.policy, found]
  | some config => exact absurd (env.configured_of_find found) missing

/-- The status that the client reads from a reply. -/
def replyStatus (body : Dictionary) : VmnetBrokerReturn := (decodeReply (.dictionary body)).2

section Uniform

variable {Key : Type} [DecidableEq Key]

/-- An acquire of this name by the peer goes on to create the network. -/
def Broker.Attempts (env : Environment Key) (broker : Broker Key) (peer : Connection) (name : CString) : Prop :=
  ∃ ctx key, broker.peers.lookup peer = some ctx ∧ ctx.networks.length < maxPeerNetworks ∧
    env.createWithCString name = some key ∧ broker.registered.lookup key = none

/-- The creation of a network, when it is attempted, succeeds or fails by its name. -/
def Uniform (env : Environment Key) (creatable : CString → Bool) (broker : Broker Key) : Event → Prop
  | .peer peer (.dictionary message) calls => ∀ name config, message.acquires = some name →
      env.networks.find? (·.name = name) = some config → broker.Attempts env peer name →
      calls.creates config = creatable name
  | _ => True

/-- Every network of the table could be created in this event. -/
def Event.createsAny (env : Environment Key) : Event → Bool
  | .peer _ (.dictionary _) calls => env.networks.all calls.creates
  | _ => true

/-- Creation that never fails is uniform. -/
theorem Event.uniform_of_createsAny {env : Environment Key} {events : List Event} {start : Broker Key}
    (all : events.all (Event.createsAny env) = true) :
    Machine.Along (step env) (Uniform env fun _ => true) start events := by
  refine Machine.Along.of_forall fun event member broker => ?_
  have creates := List.all_eq_true.mp all event member
  unfold Uniform
  split
  · intro name config requested configured attempted
    exact List.all_eq_true.mp creates config (List.mem_of_find?_eq_some configured)
  · trivial

end Uniform

namespace Broker

variable {Key : Type}

/-- The name stored in the block at an address. -/
def nameAt (broker : Broker Key) (network : Address) : Option CString :=
  (broker.heap.lookup network).bind (·.name)

/-- The names of the networks in the ownership array of a connected peer. -/
def heldNames (broker : Broker Key) (peer : Connection) : Option (List (Option CString)) :=
  (broker.peers.lookup peer).map fun ctx => ctx.networks.map broker.nameAt

/-- The statuses of the replies sent to a connection, oldest first. -/
def statusesTo (broker : Broker Key) (peer : Connection) : List VmnetBrokerReturn :=
  (broker.repliesTo peer).map replyStatus

end Broker

end VmnetBroker
