import VmnetBroker.Model.Broker

/-! # The C client (`client/client.c`)

The client sends one request and decodes one reply. The error code is read as an int64, narrowed to
an `int32_t` before it is tested, and converted to the unsigned enum. The exchange with the broker
is a parameter; `answer` instantiates it with one request event on the client's own connection, where the
broker sends a message or ends.
-/

namespace VmnetBroker

/-- What `xpc_connection_send_message_with_reply_sync` returns. -/
inductive Reply where
  | error
  | dictionary (body : Dictionary)
  | other
deriving DecidableEq

/-- The message that asks for one network, sent with a reply expected. -/
def acquireRequest (networkName : CString) : Message where
  body := ((∅ : Dictionary).insert requestCommand (.string commandAcquire)).insert
    requestNetworkName (.string networkName)
  replyContext := true

/-- The second half of `vmnet_broker_acquire_network`: the object and the status of a reply. -/
def decodeReply : Reply → Option XpcObject × VmnetBrokerReturn
  | .error => (none, .xpcFailure)
  | .other => (none, .invalidReply)
  | .dictionary body =>
    let error := (body.getInt64 replyError).toInt32
    if error ≠ 0 then (none, ⟨error.toUInt32⟩)
    else
      match body.getValue replyNetwork with
      | none => (none, .invalidReply)
      | some serialization => (some serialization, .success)

def vmnetBrokerAcquireNetwork (networkName : CString) (sendMessageWithReplySync : Message → Reply) :
    Option XpcObject × VmnetBrokerReturn :=
  decodeReply (sendMessageWithReplySync (acquireRequest networkName))

variable {Key : Type} [DecidableEq Key]

/-- What a peer receives for one request: the first message that the broker sends it while it handles the
request, or an error when the broker ends. A broker that runs on and sends no message lets the peer wait. -/
def response (env : Environment Key) (broker : Broker Key) (peer : Connection) (calls : Calls)
    (message : Message) : Option Reply :=
  match outcome env broker (.peer peer (.dictionary message) calls) with
  | .running next => ((next.repliesTo peer).drop (broker.repliesTo peer).length).head?.map .dictionary
  | _ => some .error

/-- The reply that a peer receives to one request. The blocking send would not return to a peer that gets no
message; the error in its place only makes the function total, and no request of `acquireRequest` gets there. -/
def answer (env : Environment Key) (broker : Broker Key) (peer : Connection) (calls : Calls)
    (message : Message) : Reply :=
  (response env broker peer calls message).getD .error

end VmnetBroker
