import VmnetBroker.Model.Protocol
import Mathlib.Data.Multiset.AddSub

/-! # Broker memory, external references and faults

The state holds what the broker process owns between two main-queue events: the static variables
of `broker.c` and `network.c`, the allocated `struct network` blocks, the contexts captured by the
live connections, the resumed dispatch sources, and the ledger of external references. Handlers
run in a state monad whose only failure is the end of the process: a failed assertion, a NULL
argument that CoreFoundation rejects, a load through a dangling pointer, or a release of a
reference that the broker does not own. Log output is not modelled.
-/

namespace VmnetBroker

/-- The address of a `struct network` block. A freed address may be handed out again. -/
abbrev Address := ℕ

/-- An accepted peer connection. -/
abbrev Connection := ℕ

/-- `MAX_PEER_NETWORKS`. -/
def maxPeerNetworks : ℕ := 8

/-- `struct network`; `none` is the NULL that `calloc` leaves in a pointer field. -/
structure Network where
  name : Option CString := none
  peers : ℤ := 0
  ref : Option Object := none
  serialization : Option Object := none
  idleTimer : Option Object := none
deriving DecidableEq, Repr

/-- The part of `struct broker_context` that changes: `networks[0..network_count)`. -/
structure BrokerContext where
  networks : List Address := []
deriving DecidableEq, Repr

/-- The event handler block of an idle timer, with the pointer that it captures. -/
inductive Handler where
  | removeNetwork (network : Address)
  | shutdown
deriving DecidableEq, Repr

structure Broker (Key : Type) where
  /-- `registry` of `network.c`; its values are addresses. -/
  registry : Option (AList fun _ : Key => Address) := none
  heap : AList fun _ : Address => Network := ∅
  peers : AList fun _ : Connection => BrokerContext := ∅
  /-- `connected_peers` of `broker.c`. -/
  connectedPeers : ℤ := 0
  /-- `idle_timer` of `broker.c`. -/
  idleTimer : Option Object := none
  transactionBegins : ℕ := 0
  transactionEnds : ℕ := 0
  /-- Resumed dispatch timer sources that are neither cancelled nor fired. -/
  sources : AList fun _ : Object => Handler := ∅
  /-- Every reference obtained and not yet released. -/
  objects : Multiset Object := 0
  nextObject : ℕ := 0
  /-- Messages sent to peers, oldest first. -/
  sent : List (Connection × Dictionary) := []

namespace Broker

variable {Key : Type}

/-- The bindings of the registry; a registry that was never created has none. -/
def registered (broker : Broker Key) : AList fun _ : Key => Address := broker.registry.getD ∅

/-- The replies sent to one connection, oldest first. -/
def repliesTo (broker : Broker Key) (peer : Connection) : List Dictionary :=
  (broker.sent.filter (·.1 = peer)).map (·.2)

end Broker

/-- The outcome of every call that may fail while one event is handled. -/
structure Calls where
  vmnetNetworkConfigurationCreate : Bool := true
  inetPtonSubnet : Bool := true
  inetPtonMask : Bool := true
  vmnetNetworkConfigurationSetIpv4Subnet : Bool := true
  calloc : Option Address := none
  strdup : Bool := true
  vmnetNetworkCreate : Bool := true
  vmnetNetworkCopySerialization : Bool := true
  dispatchSourceCreate : Bool := true
deriving DecidableEq, Repr

/-- Why the process ended without calling `exit`. -/
inductive Fault where
  | nullKey
  | nullRegistry
  | nullName
  | nullObject
  | danglingNetwork (network : Address)
  | danglingContext (peer : Connection)
  | overRelease (object : Object)
  | networkTimerRunning
  | brokerTimerRunning
  | sourceCreateFailed
deriving DecidableEq, Repr

abbrev BrokerM (Key : Type) := StateT (Broker Key) (Except Fault)

namespace BrokerM

variable {Key : Type} {α β : Type} {broker : Broker Key}

@[simp] theorem ok_bind {ε : Type} (value : α) (next : α → Except ε β) :
    (Except.ok value >>= next) = next value := rfl

@[simp] theorem error_bind {ε : Type} (error : ε) (next : α → Except ε β) :
    (Except.error error >>= next) = Except.error error := rfl

@[simp] theorem pure_eq_ok {ε : Type} (value : α) : (pure value : Except ε α) = .ok value := rfl

def fail (fault : Fault) : BrokerM Key α := fun _ => .error fault

@[simp] theorem run_fail (fault : Fault) : (fail fault : BrokerM Key α).run broker = .error fault := rfl

/-- Obtain a new external object; the caller owns its first reference. -/
def create (kind : ObjectKind) : BrokerM Key Object := do
  let broker ← get
  let object : Object := ⟨kind, broker.nextObject⟩
  set { broker with objects := object ::ₘ broker.objects, nextObject := broker.nextObject + 1 }
  return object

@[simp] theorem run_create (kind : ObjectKind) : (create kind).run broker =
    .ok (⟨kind, broker.nextObject⟩, { broker with
      objects := ⟨kind, broker.nextObject⟩ ::ₘ broker.objects
      nextObject := broker.nextObject + 1 }) := rfl

/-- `xpc_retain`. -/
def retain (object : Object) : BrokerM Key Unit :=
  modify fun broker => { broker with objects := object ::ₘ broker.objects }

@[simp] theorem run_retain (object : Object) : (retain object).run broker =
    .ok ((), { broker with objects := object ::ₘ broker.objects }) := rfl

/-- `CFRelease`, `xpc_release` and `dispatch_release` of a non-NULL object. -/
def release (object : Object) : BrokerM Key Unit := do
  let broker ← get
  if object ∈ broker.objects then
    set { broker with objects := broker.objects.erase object }
  else fail (.overRelease object)

theorem run_release {object : Object} (owned : object ∈ broker.objects) : (release object).run broker =
    .ok ((), { broker with objects := broker.objects.erase object }) := by
  simp [release, owned]

/-- The guarded release of a pointer field. -/
def releaseIfSet : Option Object → BrokerM Key Unit
  | none => pure ()
  | some object => release object

/-- Dereference a `struct network` pointer. -/
def load (network : Address) : BrokerM Key Network := do
  match (← get).heap.lookup network with
  | some value => return value
  | none => fail (.danglingNetwork network)

theorem run_load {network : Address} {value : Network} (live : broker.heap.lookup network = some value) :
    (load network).run broker = .ok (value, broker) := by
  simp [load, live]

/-- Assign through a `struct network` pointer. -/
def store (network : Address) (value : Network) : BrokerM Key Unit := do
  let broker ← get
  if network ∈ broker.heap then set { broker with heap := broker.heap.insert network value }
  else fail (.danglingNetwork network)

theorem run_store {network : Address} (value : Network) (live : network ∈ broker.heap) :
    (store network value).run broker =
      .ok ((), { broker with heap := broker.heap.insert network value }) := by
  simp [store, live]

/-- Read the context captured by a connection. -/
def context (peer : Connection) : BrokerM Key BrokerContext := do
  match (← get).peers.lookup peer with
  | some value => return value
  | none => fail (.danglingContext peer)

theorem run_context {peer : Connection} {value : BrokerContext}
    (live : broker.peers.lookup peer = some value) : (context peer).run broker = .ok (value, broker) := by
  simp [context, live]

def setContext (peer : Connection) (value : BrokerContext) : BrokerM Key Unit :=
  modify fun broker => { broker with peers := broker.peers.insert peer value }

@[simp] theorem run_setContext (peer : Connection) (value : BrokerContext) :
    (setContext peer value).run broker =
      .ok ((), { broker with peers := broker.peers.insert peer value }) := rfl

/-- `dispatch_source_create`, the assertion on its result, and `dispatch_resume`. -/
def createSource (handler : Handler) (calls : Calls) : BrokerM Key Object := do
  if calls.dispatchSourceCreate then
    let source ← create .source
    modify fun broker => { broker with sources := broker.sources.insert source handler }
    return source
  else fail .sourceCreateFailed

theorem run_createSource (handler : Handler) {calls : Calls} (created : calls.dispatchSourceCreate = true) :
    (createSource handler calls).run broker = .ok (⟨.source, broker.nextObject⟩, { broker with
      sources := broker.sources.insert ⟨.source, broker.nextObject⟩ handler
      objects := ⟨.source, broker.nextObject⟩ ::ₘ broker.objects
      nextObject := broker.nextObject + 1 }) := by
  simp [createSource, created]

/-- `dispatch_source_cancel`: the handler never runs again. -/
def cancelSource (source : Object) : BrokerM Key Unit :=
  modify fun broker => { broker with sources := broker.sources.erase source }

@[simp] theorem run_cancelSource (source : Object) : (cancelSource source).run broker =
    .ok ((), { broker with sources := broker.sources.erase source }) := rfl

/-- `xpc_connection_send_message`. -/
def send (peer : Connection) (body : Dictionary) : BrokerM Key Unit :=
  modify fun broker => { broker with sent := broker.sent ++ [(peer, body)] }

@[simp] theorem run_send (peer : Connection) (body : Dictionary) : (send peer body).run broker =
    .ok ((), { broker with sent := broker.sent ++ [(peer, body)] }) := rfl

end BrokerM

end VmnetBroker
