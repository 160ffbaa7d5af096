import VmnetBroker.Model.Client
import VmnetBroker.Machine.References
import VmnetBroker.Machine.Run

/-! # The client libraries (`client/client.c` and `go/vmnet_broker`)

A client process calls the C function directly or through the Go wrapper, any number of times. The memory is
what the library obtains: the static connection, messages, replies and the values in them, and the C
strings of the Go wrapper, each with its references. A call fails only where C code would touch an object that is
gone. Calls run one after the other; the event handler of the connection, which ignores its events, and log
output are left out.
-/

namespace VmnetBroker

open Machine (Store)

/-- The memory of a client process, with the static `connection`. -/
structure ClientMemory where
  connection : Option ℕ := none
  objects : Store := {}

abbrev ClientM := StateT ClientMemory Option

namespace ClientM

/-- Obtain an object that holds these objects; a C string and `free` are an object and its release. -/
def create (parts : List ℕ) : ClientM ℕ := fun memory =>
  let (object, objects) := memory.objects.create parts
  some (object, { memory with objects := objects })

/-- `xpc_retain`. -/
def retain (object : ℕ) : ClientM Unit := fun memory =>
  (memory.objects.retain object).map fun objects => ((), { memory with objects := objects })

/-- `xpc_release` and `free`. -/
def release (object : ℕ) : ClientM Unit := fun memory =>
  (memory.objects.release object).map fun objects => ((), { memory with objects := objects })

end ClientM

open ClientM

def connectToBroker : ClientM Unit := do
  let connection ← create []
  modify fun memory => { memory with connection := some connection }

/-- `xpc_connection_send_message_with_reply_sync`: the reply, and the value in it under the network key. -/
def receive : Reply → ClientM (ℕ × Option ℕ)
  | .dictionary body =>
    match body.getValue replyNetwork with
    | some _ => do
      let value ← create []
      let reply ← create [value]
      return (reply, some value)
    | none => do return (← create [], none)
  | .error | .other => do return (← create [], none)

/-- The status of a reply; a serialization that is returned is retained before the reply goes. -/
def decodeInMemory (value : Option ℕ) : Reply → ClientM (Option ℕ × VmnetBrokerReturn)
  | .error => return (none, .xpcFailure)
  | .other => return (none, .invalidReply)
  | .dictionary body => do
    let error := (body.getInt64 replyError).toInt32
    if error ≠ 0 then return (none, ⟨error.toUInt32⟩)
    else
      match value with
      | none => return (none, .invalidReply)
      | some serialization => do
        retain serialization
        return (some serialization, .success)

/-- The exchange of `vmnet_broker_acquire_network`, on an open connection. -/
def exchangeInMemory (networkName : CString) (sendMessageWithReplySync : Message → Reply) :
    ClientM (Option ℕ × VmnetBrokerReturn) := do
  let message ← create []
  let answer := sendMessageWithReplySync (acquireRequest networkName)
  let (reply, value) ← receive answer
  release message
  let result ← decodeInMemory value answer
  release reply
  return result

/-- `vmnet_broker_acquire_network`, with the reply to its message. -/
def acquireInMemory (networkName : CString) (sendMessageWithReplySync : Message → Reply) :
    ClientM (Option ℕ × VmnetBrokerReturn) := do
  match (← get).connection with
  | none => do
    connectToBroker
    exchangeInMemory networkName sendMessageWithReplySync
  | some _ => exchangeInMemory networkName sendMessageWithReplySync

/-- `vmnet_broker_strerror`. -/
def vmnetBrokerStrerror (status : VmnetBrokerReturn) : String :=
  if status = .success then "Broker session started"
  else if status = .xpcFailure then "Failed to send XPC message to broker"
  else if status = .invalidReply then "Broker returned invalid reply"
  else if status = .notAllowed then "You are not allowed to create a network"
  else if status = .invalidRequest then "Invalid broker request"
  else if status = .notFound then "Network name not found"
  else if status = .createFailure then "Failed to create network"
  else if status = .internalError then "Internal or unknown error"
  else "(unknown status)"

/-- What C reads of a string that may contain zero bytes. -/
def CString.ofBytes (bytes : List UInt8) : CString where
  bytes := bytes.takeWhile (· ≠ 0)
  nul_free member := by simpa using List.mem_takeWhile_imp member

/-- `AcquireNetwork` of the Go package. Its error is the status. -/
def goAcquireNetwork (networkName : List UInt8) (sendMessageWithReplySync : Message → Reply) :
    ClientM (Except VmnetBrokerReturn ℕ) := do
  let cName ← create []
  let (obj, status) ← acquireInMemory (.ofBytes networkName) sendMessageWithReplySync
  release cName
  match obj with
  | none => return .error status
  | some obj => return .ok obj

/-- The message for a failed call: `Error()` in Go, and what a C caller prints. -/
def errorMessage : Except VmnetBrokerReturn ℕ → Option String
  | .error status => some (vmnetBrokerStrerror status)
  | .ok _ => none

/-- A call from either language, and the reply that it receives. -/
inductive LibraryCall where
  | c (networkName : CString) (reply : Reply)
  | go (networkName : List UInt8) (reply : Reply)

/-- What the caller learns: the serialization, or else the status. -/
def LibraryCall.invoke : LibraryCall → ClientM (Except VmnetBrokerReturn ℕ)
  | .c networkName reply => do
    let (serialization, status) ← acquireInMemory networkName fun _ => reply
    return serialization.elim (.error status) .ok
  | .go networkName reply => goAcquireNetwork networkName fun _ => reply

/-- A process calls the library, or drops a serialization: by `xpc_release` in C, by the cleanup of an unreachable
`Serialization` in Go. -/
inductive LibraryEvent where
  | call (call : LibraryCall)
  | drop (handle : ℕ)

/-- A client process and the serializations that it was given and has not dropped. -/
structure LibraryProcess where
  memory : ClientMemory := {}
  handles : List ℕ := []

/-- The process after an event; only a serialization that is still there may be dropped. -/
def libraryStep (process : LibraryProcess) : LibraryEvent → Option LibraryProcess
  | .call call => (call.invoke.run process.memory).map fun (result, memory) =>
    { memory := memory, handles := result.toOption.toList ++ process.handles }
  | .drop handle =>
    if handle ∈ process.handles then
      ((release handle).run process.memory).map fun (_, memory) =>
        { memory := memory, handles := process.handles.erase handle }
    else none

end VmnetBroker
