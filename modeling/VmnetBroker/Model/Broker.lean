import VmnetBroker.Model.Network
import VmnetBroker.Machine.Run

/-! # Main-queue events (`broker/broker.c` and `broker/xpc.c`)

Every handler runs to completion on the main queue, so a broker run is a sequence of events. An
event is enabled when the system may deliver it: XPC reports events of accepted connections only,
and nothing after the invalidation of a connection; a dispatch source fires only while it is
resumed and not cancelled; and `calloc` never returns a block that is still allocated.
-/

namespace VmnetBroker

open BrokerM

variable {Key : Type} [DecidableEq Key]

/-- Create a reply, let the caller fill it, send it and release it. A message without a return
address gets no reply. -/
def sendReply (peer : Connection) (event : Message) (body : Dictionary) : BrokerM Key Unit := do
  if event.replyContext then
    let reply ← create .reply
    send peer body
    release reply
  else pure ()

/-- `send_xpc_error`: the `int` code is widened to the int64 of the protocol. -/
def sendXpcError (peer : Connection) (event : Message) (code : Int32) : BrokerM Key Unit :=
  sendReply peer event (AList.singleton replyError (.int64 code.toInt64))

/-- `send_xpc_network`. -/
def sendXpcNetwork (peer : Connection) (event : Message) (serialization : Object) : BrokerM Key Unit :=
  sendReply peer event (AList.singleton replyNetwork (.serialization serialization))

def onPeerRequest (env : Environment Key) (peer : Connection) (event : Message) (calls : Calls) :
    BrokerM Key Unit := do
  match event.body.getString requestCommand with
  | none => sendXpcError peer event VmnetBrokerReturn.invalidRequest.toInt
  | some command =>
    if command ≠ commandAcquire then sendXpcError peer event VmnetBrokerReturn.invalidRequest.toInt
    else
      match event.body.getString requestNetworkName with
      | none => sendXpcError peer event VmnetBrokerReturn.invalidRequest.toInt
      | some networkName =>
        match ← acquireNetwork env peer networkName calls 0 with
        | (none, error) => sendXpcError peer event error
        | (some serialization, _) => do
          sendXpcNetwork peer event serialization
          release serialization

/-- Arm the broker idle timer; an armed timer fails the assertion. -/
def shutdownLater (calls : Calls) : BrokerM Key Unit := do
  if (← get).idleTimer.isSome then fail .brokerTimerRunning
  else
    let timer ← createSource .shutdown calls
    modify fun broker => { broker with idleTimer := some timer }

/-- Cancel the broker idle timer if it is armed. -/
def cancelShutdown : BrokerM Key Unit := do
  match (← get).idleTimer with
  | none => pure ()
  | some timer => do
    cancelSource timer
    release timer
    modify fun broker => { broker with idleTimer := none }

def onPeerConnect : BrokerM Key Unit := do
  modify fun broker => { broker with connectedPeers := broker.connectedPeers + 1 }
  if (← get).connectedPeers = 1 then
    modify fun broker => { broker with transactionBegins := broker.transactionBegins + 1 }
    cancelShutdown
  else pure ()

def onPeerDisconnect (peer : Connection) (calls : Calls) : BrokerM Key Unit := do
  modify fun broker => { broker with connectedPeers := broker.connectedPeers - 1 }
  releasePeerNetworks peer calls
  if (← get).connectedPeers = 0 then
    modify fun broker => { broker with transactionEnds := broker.transactionEnds + 1 }
    shutdownLater calls
  else pure ()

/-- What XPC delivers to the event handler of a peer connection. -/
inductive PeerEvent where
  /-- `XPC_ERROR_CONNECTION_INVALID`. -/
  | connectionInvalid
  /-- Any other XPC error. -/
  | error
  | dictionary (message : Message)
  /-- An object of any other type. -/
  | other
deriving DecidableEq

/-- What XPC delivers to the listener. -/
inductive ListenerEvent where
  | error
  | connection (peer : Connection)
  | other
deriving DecidableEq

inductive Event where
  | listener (event : ListenerEvent)
  | peer (peer : Connection) (event : PeerEvent) (calls : Calls)
  | timer (source : Object)
  /-- `SIGINT` or `SIGTERM`. -/
  | signal
deriving DecidableEq

/-- The three calls of `exit` in the broker. -/
inductive Exit where
  | idleTimeout
  | signal
  | listenerFailed
deriving DecidableEq, Repr

/-- `handle_connection`: a fresh context, then the connect callback. -/
def handleConnection (peer : Connection) : BrokerM Key Unit := do
  setContext peer {}
  onPeerConnect

/-- The event handler block that `handle_connection` installs. The context is destroyed with the
block when XPC drops an invalid connection. -/
def peerHandler (env : Environment Key) (peer : Connection) (calls : Calls) : PeerEvent → BrokerM Key Unit
  | .connectionInvalid => do
    onPeerDisconnect peer calls
    modify fun broker => { broker with peers := broker.peers.erase peer }
  | .error => pure ()
  | .dictionary message => onPeerRequest env peer message calls
  | .other => pure ()

/-- The event handler of the listener. -/
def listenerHandler : ListenerEvent → BrokerM Key (Option Exit)
  | .error => return some .listenerFailed
  | .connection peer => do
    handleConnection peer
    return none
  | .other => return none

/-- A one-shot timer source fires and runs its handler. -/
def timerHandler (env : Environment Key) (source : Object) : BrokerM Key (Option Exit) := do
  match (← get).sources.lookup source with
  | none => return none
  | some handler =>
    modify fun broker => { broker with sources := broker.sources.erase source }
    match handler with
    | .removeNetwork network => do
      removeNetworkHandler env network
      return none
    | .shutdown => do
      shutdownNetworks
      return some .idleTimeout

/-- The event handler of both signal sources. -/
def signalHandler : BrokerM Key (Option Exit) := do
  if (← get).connectedPeers > 0 then return none
  else
    shutdownNetworks
    return some .signal

/-- Run the handler of one event; a returned exit ends the process. -/
def handle (env : Environment Key) : Event → BrokerM Key (Option Exit)
  | .listener event => listenerHandler event
  | .peer peer event calls => do
    peerHandler env peer calls event
    return none
  | .timer source => timerHandler env source
  | .signal => signalHandler

/-- How the handling of an event leaves the process. -/
inductive Outcome (Key : Type) where
  | running (broker : Broker Key)
  | exited (exit : Exit) (broker : Broker Key)
  | crashed (fault : Fault)

def outcome (env : Environment Key) (broker : Broker Key) (event : Event) : Outcome Key :=
  match (handle env event).run broker with
  | .ok (none, next) => .running next
  | .ok (some exit, next) => .exited exit next
  | .error fault => .crashed fault

/-- The system may deliver this event now. -/
def Enabled (broker : Broker Key) : Event → Prop
  | .listener (.connection peer) => peer ∉ broker.peers
  | .listener _ => True
  | .peer peer _ calls => peer ∈ broker.peers ∧ ∀ network ∈ calls.calloc, network ∉ broker.heap
  | .timer source => source ∈ broker.sources
  | .signal => True

instance (broker : Broker Key) : DecidablePred (Enabled broker)
  | .listener (.connection _) => inferInstanceAs (Decidable (_ ∉ _))
  | .listener .error | .listener .other => inferInstanceAs (Decidable True)
  | .peer _ _ _ => inferInstanceAs (Decidable (_ ∧ ∀ network ∈ _, _))
  | .timer _ => inferInstanceAs (Decidable (_ ∈ _))
  | .signal => inferInstanceAs (Decidable True)

/-- The state after an enabled event that does not end the process. -/
def step (env : Environment Key) (broker : Broker Key) (event : Event) : Option (Broker Key) :=
  if Enabled broker event then
    match outcome env broker event with
    | .running next => some next
    | _ => none
  else none

/-- The state after a sequence of events, none of which ends the process. -/
def run (env : Environment Key) (events : List Event) : Option (Broker Key) :=
  Machine.run (step env) {} events

/-- Some broker run is in this state. -/
def Reachable (env : Environment Key) (broker : Broker Key) : Prop := ∃ events, run env events = some broker

theorem step_eq_some {env : Environment Key} {broker next : Broker Key} {event : Event} :
    step env broker event = some next ↔ Enabled broker event ∧ outcome env broker event = .running next := by
  unfold step
  split
  · next enabled =>
    cases result : outcome env broker event <;> simp [enabled]
  · next disabled => simp [disabled]

end VmnetBroker
