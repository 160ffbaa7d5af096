import VmnetBroker.Proofs.Session

/-! # Requests and replies over a run

The broker sends messages only in answer to requests. Over any run the messages sent and the requests that
expect a reply correspond one to one and in order: none is lost, sent twice, sent unasked or sent to another
peer, and each says what the protocol lets it say about its request.
-/

namespace VmnetBroker

variable {Key : Type} [DecidableEq Key] {env : Environment Key} {broker core next : Broker Key} {event : Event}
  {peer : Connection} {ctx : BrokerContext} {message : Message} {calls : Calls}
  {result : Option Object × Int32}

/-- A request that the broker can answer, and its sender. -/
def Event.asks : Event → Option (Connection × Message)
  | .peer peer (.dictionary message) _ => if message.replyContext then some (peer, message) else none
  | _ => none

/-- What the protocol allows as the answer to a request: to its sender, and either one network under the
network key or one of the codes of the broker under the error key. -/
inductive Answers : Connection × Message → Connection × Dictionary → Prop
  | malformed {peer : Connection} {message : Message} (rejected : message.acquires = none) :
      Answers (peer, message) (peer, replyBody (none, VmnetBrokerReturn.invalidRequest.toInt))
  | refused {peer : Connection} {message : Message} {name : CString} {status : VmnetBrokerReturn}
      (requested : message.acquires = some name)
      (known : status ∈ [VmnetBrokerReturn.notFound, .createFailure, .internalError]) :
      Answers (peer, message) (peer, replyBody (none, status.toInt))
  | granted {peer : Connection} {message : Message} {name : CString} {serialization : Object}
      (requested : message.acquires = some name) (kind : serialization.kind = .serialization) :
      Answers (peer, message) (peer, replyBody (some serialization, 0))

/-- The client makes one of five statuses of an answer, and gets an object exactly with success. -/
theorem Answers.decoded {asked : Connection × Message} {answered : Connection × Dictionary}
    (answers : Answers asked answered) :
    (decodeReply (.dictionary answered.2)).2 ∈
      [VmnetBrokerReturn.success, .invalidRequest, .notFound, .createFailure, .internalError] := by
  cases answers with
  | malformed rejected =>
    change replyStatus _ ∈ _
    rw [replyStatus_error (by simp)]
    simp
  | granted requested kind => exact List.mem_cons_self ..
  | refused requested known =>
    change replyStatus _ ∈ _
    simp only [List.mem_cons, List.not_mem_nil, or_false] at known
    rcases known with rfl | rfl | rfl
    · rw [replyStatus_error (by simp)]
      simp
    · rw [replyStatus_error (by simp)]
      simp
    · rw [replyStatus_error (by simp)]
      simp

/-- The client can read each of a sequence of answers. -/
theorem answers_decoded {asked : List (Connection × Message)} {answered : List (Connection × Dictionary)}
    (paired : List.Forall₂ Answers asked answered) : ∀ reply ∈ answered, (decodeReply (.dictionary reply.2)).2 ∈
      [VmnetBrokerReturn.success, .invalidRequest, .notFound, .createFailure, .internalError] := by
  induction paired with
  | nil => simp
  | cons first rest ih =>
    intro reply member
    rcases List.mem_cons.mp member with rfl | later
    · exact first.decoded
    · exact ih reply later

/-- A request is answered as the protocol allows. -/
theorem RequestEffect.answers (effect : RequestEffect env broker peer ctx message calls result core)
    (coherent : Coherent env broker) : Answers (peer, message) (peer, replyBody result) := by
  cases effect with
  | malformed rejected => exact .malformed rejected
  | acquire requested created ran effect =>
    have kind {network : Address} {value : Network} {serialization : Object}
        (live : broker.heap.lookup network = some value) (stored : value.serialization = some serialization) :
        serialization.kind = .serialization := by
      obtain ⟨_, held, _, same, _, kind⟩ := coherent.complete network value live
      rwa [Option.some.inj (stored.symm.trans same)]
    cases effect with
    | owned registered member live stored => exact .granted requested (kind live stored)
    | shared registered unowned room live stored => exact .granted requested (kind live stored)
    | created unregistered room configured good allocated absent kinds => exact .granted requested kinds.2
    | full => exact .refused requested (by simp)
    | notFound => exact .refused requested (by simp)
    | createFailure => exact .refused requested (by simp)

/-- A step sends the answer to its request, and no other message. -/
theorem StepEffect.sent (effect : StepEffect env broker event next) (wf : WellFormed env broker) :
    ∃ messages, next.sent = broker.sent ++ messages ∧ List.Forall₂ Answers event.asks.toList messages := by
  cases effect with
  | ignored harmless =>
    refine ⟨[], (List.append_nil _).symm, ?_⟩
    cases event with
    | listener | timer | signal => exact .nil
    | peer peer event calls =>
      cases event with
      | connectionInvalid | error | other => exact .nil
      | dictionary => contradiction
  | accepted absent => exact ⟨[], by simp, .nil⟩
  | @requested peer _ message _ result _ _ found effect same replied =>
    refine ⟨_, replied, ?_⟩
    cases expected : message.replyContext with
    | true =>
      simp only [Event.asks, Message.replies, expected, if_true, Option.toList_some]
      exact .cons (effect.answers wf.toCoherent) .nil
    | false =>
      simp only [Event.asks, Message.replies, expected, Bool.false_eq_true, if_false, Option.toList_none]
      exact .nil
  | disconnected found coherent timed emptied others released =>
    exact ⟨[], by rw [Broker.farewell_sent, released.sent, List.append_nil], .nil⟩
  | removed => exact ⟨[], (List.append_nil _).symm, .nil⟩

/-- Over any run, the messages sent answer the requests that expect a reply, one each and in order, and the
client can read each of them. -/
theorem replies_answer_requests {events : List Event} (ran : run env events = some broker) :
    List.Forall₂ Answers (events.filterMap Event.asks) broker.sent ∧
    ∀ reply ∈ broker.sent, (decodeReply (.dictionary reply.2)).2 ∈
      [VmnetBrokerReturn.success, .invalidRequest, .notFound, .createFailure, .internalError] := by
  have paired : List.Forall₂ Answers (events.filterMap Event.asks) broker.sent := by
    apply Machine.run_history (fun events broker => List.Forall₂ Answers (events.filterMap Event.asks) broker.sent)
      _ _ ran
    · exact .nil
    · intro events broker event next before answered stepped
      have wf : WellFormed env broker := Reachable.wellFormed ⟨events, before⟩
      obtain ⟨messages, sent, answers⟩ := (step_effect wf stepped).sent wf
      have last : [event].filterMap Event.asks = event.asks.toList := by
        cases asked : event.asks <;> simp [asked]
      rw [sent, List.filterMap_append, last]
      exact List.rel_append answered answers
  exact ⟨paired, answers_decoded paired⟩

/-- Two peers ask in turn: for a network, without a command, for a name that is not configured, and without
expecting a reply. -/
def mixedRequests : List Event :=
  [.listener (.connection 1), .listener (.connection 2),
    .peer 1 (.dictionary (acquireRequest (.ofString "shared"))) { calloc := some 16 },
    .peer 2 (.dictionary { body := ∅, replyContext := true }) {},
    .peer 2 (.dictionary (acquireRequest (.ofString "no-such-network"))) {},
    .peer 1 (.dictionary { acquireRequest (.ofString "host") with replyContext := false }) { calloc := some 32 }]

theorem replies_answer_requests_mixed : ∃ broker, run builtinEnvironment mixedRequests = some broker ∧
    broker.sent.map (·.1) = [1, 2, 2] ∧ List.Forall₂ Answers (mixedRequests.filterMap Event.asks) broker.sent := by
  have checked : (run builtinEnvironment mixedRequests).map (·.sent.map (·.1)) = some [1, 2, 2] := by decide +kernel
  obtain ⟨broker, ran, receivers⟩ := Option.map_eq_some_iff.mp checked
  exact ⟨broker, ran, receivers, (replies_answer_requests ran).1⟩

end VmnetBroker
