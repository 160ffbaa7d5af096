import VmnetBroker.Model.Client
import VmnetBroker.Model.Session

/-! # Clients, launchd and the broker processes

Any number of processes link `client.c`, and launchd keeps the Mach service: it starts a broker when a
message waits and none runs. A client opens its connection with its first call and keeps it. A call blocks
until its reply is there: the broker takes its message once, and a broker that takes it, runs on and sends
nothing back leaves the call blocked. When a broker ends, XPC interrupts its connections: a call that waits
for its answer gets an error, and a later message of the same client is the first of a connection to the
next broker. A client may end at any time, and other programs talk to the broker as well.
-/

namespace VmnetBroker

/-- A network that a client was given: the name that it asked for, the broker process that answered, by the
number of its launch, and what it got. -/
structure Grant where
  name : CString
  launch : ℕ
  serialization : XpcObject
deriving DecidableEq

/-- A process that links `client.c`. -/
structure ClientProcess where
  /-- The name in the call that blocks in `xpc_connection_send_message_with_reply_sync`. -/
  asking : Option CString := none
  /-- The broker has taken the message of the call. -/
  delivered : Bool := false
  /-- The reply on its way, and the launch of its sender. -/
  reply : Option (ℕ × Reply) := none
  networks : List Grant := []
deriving DecidableEq

namespace ClientProcess

/-- `vmnet_broker_acquire_network` up to the send. -/
def call (client : ClientProcess) (name : CString) : ClientProcess :=
  { client with asking := some name }

/-- XPC gives up on the message that a broker has not answered. -/
def interrupted (client : ClientProcess) (launch : ℕ) : ClientProcess :=
  if client.asking.isSome && client.reply.isNone then { client with reply := some (launch, .error) } else client

/-- A broker has taken the message; the call still blocks when there is no response. -/
def served (client : ClientProcess) (launch : ℕ) (response : Option Reply) : ClientProcess :=
  { client with delivered := true, reply := response.map (launch, ·) }

/-- `vmnet_broker_acquire_network` from the reply on. -/
def receive (client : ClientProcess) (name : CString) (launch : ℕ) (reply : Reply) : ClientProcess :=
  { client with
    asking := none
    delivered := false
    reply := none
    networks := client.networks ++ ((decodeReply reply).1.map fun serialization => ⟨name, launch, serialization⟩).toList }

end ClientProcess

/-- The running broker, how many were started, and the clients by connection. -/
structure Deployment (Key : Type) where
  broker : Option (Broker Key) := none
  launches : ℕ := 0
  /-- The running brokers that a fault or an error of the listener ended. -/
  lost : List ℕ := []
  clients : Connection → Option ClientProcess := fun _ => none

namespace Deployment

variable {Key : Type}

def setClient (deployment : Deployment Key) (peer : Connection) (client : Option ClientProcess) : Deployment Key :=
  { deployment with clients := Function.update deployment.clients peer client }

/-- The broker process is gone, and its connections are interrupted. -/
def ended (deployment : Deployment Key) (broker : Broker Key) (orderly : Bool) : Deployment Key :=
  { deployment with
    broker := none
    lost := if orderly then deployment.lost else deployment.launches :: deployment.lost
    clients := fun peer => (deployment.clients peer).map fun client =>
      if peer ∈ broker.peers then client.interrupted deployment.launches else client }

variable [DecidableEq Key]

/-- The broker handles an event. Only a failed listener and a fault end it while it serves. -/
def deliver (env : Environment Key) (deployment : Deployment Key) (broker : Broker Key) (event : Event) :
    Deployment Key :=
  match outcome env broker event with
  | .running next => { deployment with broker := some next }
  | .exited .listenerFailed _ => deployment.ended broker false
  | .exited .idleTimeout _ | .exited .signal _ => deployment.ended broker true
  | .crashed _ => deployment.ended broker false

end Deployment

/-- One move of one party. -/
inductive Turn where
  /-- A client process starts. -/
  | start (peer : Connection)
  | call (peer : Connection) (name : CString)
  /-- launchd starts a broker; `start_xpc_listener` may fail to create the listener. -/
  | launch (listening : Bool)
  /-- The first message of a connection reaches the broker. -/
  | accept (peer : Connection)
  | serve (peer : Connection) (calls : Calls)
  | receive (peer : Connection)
  /-- A client process ends. -/
  | terminate (peer : Connection)
  /-- Anything else that happens to the broker: timers, signals, errors, the connections of ended clients and of
  other programs. -/
  | other (event : Event)
deriving DecidableEq

variable {Key : Type} [DecidableEq Key]

/-- The event is no message of a running client. -/
def Deployment.foreign (deployment : Deployment Key) (event : Event) : Bool :=
  event.action.all fun action => (deployment.clients action.1).isNone

/-- The deployment after one move, if the move is possible. -/
def turn (env : Environment Key) (deployment : Deployment Key) : Turn → Option (Deployment Key)
  | .start peer =>
    if (deployment.clients peer).isNone ∧ ∀ broker ∈ deployment.broker, peer ∉ broker.peers then
      some (deployment.setClient peer (some {}))
    else none
  | .call peer name => do
    let client ← deployment.clients peer
    if client.asking.isNone then some (deployment.setClient peer (some (client.call name))) else none
  | .launch listening =>
    if deployment.broker.isNone then
      some { deployment with
        broker := if listening then some {} else none
        launches := deployment.launches + 1 }
    else none
  | .accept peer => do
    let client ← deployment.clients peer
    let broker ← deployment.broker
    if client.asking.isSome ∧ client.reply.isNone ∧ Enabled broker (.listener (.connection peer)) then
      some (deployment.deliver env broker (.listener (.connection peer)))
    else none
  | .serve peer calls => do
    let client ← deployment.clients peer
    let broker ← deployment.broker
    let name ← client.asking
    let request := acquireRequest name
    if client.delivered = false ∧ client.reply.isNone ∧
        Enabled broker (.peer peer (.dictionary request) calls) then
      some ((deployment.deliver env broker (.peer peer (.dictionary request) calls)).setClient peer
        (some (client.served deployment.launches (response env broker peer calls request))))
    else none
  | .receive peer => do
    let client ← deployment.clients peer
    let name ← client.asking
    let (launch, reply) ← client.reply
    some (deployment.setClient peer (some (client.receive name launch reply)))
  | .terminate peer => do
    let _ ← deployment.clients peer
    some (deployment.setClient peer none)
  | .other event => do
    let broker ← deployment.broker
    if deployment.foreign event ∧ Enabled broker event then some (deployment.deliver env broker event) else none

/-- The deployment after a sequence of moves. -/
def deploy (env : Environment Key) (turns : List Turn) : Option (Deployment Key) :=
  Machine.run (turn env) {} turns

end VmnetBroker
