import VmnetBroker.Model.Broker
import VmnetBroker.Proofs.Acquire

/-! # The possible effects of a request

A request is either malformed, and then only answered, or it acquires the network that it names.
The answer is determined by what `acquire_network` returned: an object travels under the network
key, and NULL under the error key together with the code that the failing branch assigned. The one
request that does not complete names a network in bytes that are not valid UTF-8.
-/

namespace VmnetBroker

open BrokerM

variable {Key : Type}

/-- What XPC delivers for one reply; a message without a return address gets none. -/
def Message.replies (message : Message) (peer : Connection) (body : Dictionary) :
    List (Connection × Dictionary) :=
  if message.replyContext then [(peer, body)] else []

/-- The reply to a request on which `acquire_network` returned this object and left this code. -/
def replyBody : Option Object × Int32 → Dictionary
  | (none, code) => AList.singleton replyError (.int64 code.toInt64)
  | (some serialization, _) => AList.singleton replyNetwork (.serialization serialization)

/-- Replies and used identities apart, the states are the same. -/
structure Broker.Matches (broker next : Broker Key) : Prop where
  registered : next.registered = broker.registered
  heap : next.heap = broker.heap
  peers : next.peers = broker.peers
  connectedPeers : next.connectedPeers = broker.connectedPeers
  idleTimer : next.idleTimer = broker.idleTimer
  transactionBegins : next.transactionBegins = broker.transactionBegins
  transactionEnds : next.transactionEnds = broker.transactionEnds
  sources : next.sources = broker.sources
  objects : next.objects = broker.objects
  nextObject : broker.nextObject ≤ next.nextObject

theorem Broker.Matches.refl (broker : Broker Key) : broker.Matches broker :=
  ⟨rfl, rfl, rfl, rfl, rfl, rfl, rfl, rfl, rfl, le_rfl⟩

theorem Broker.Matches.trans {broker middle next : Broker Key} (first : broker.Matches middle)
    (second : middle.Matches next) : broker.Matches next where
  registered := second.registered.trans first.registered
  heap := second.heap.trans first.heap
  peers := second.peers.trans first.peers
  connectedPeers := second.connectedPeers.trans first.connectedPeers
  idleTimer := second.idleTimer.trans first.idleTimer
  transactionBegins := second.transactionBegins.trans first.transactionBegins
  transactionEnds := second.transactionEnds.trans first.transactionEnds
  sources := second.sources.trans first.sources
  objects := second.objects.trans first.objects
  nextObject := first.nextObject.trans second.nextObject

theorem Broker.Matches.timed {broker next : Broker Key} (same : broker.Matches next) (timed : broker.Timed) :
    next.Timed := by
  unfold Broker.Timed
  rw [same.heap]
  exact timed

/-- A reply is created, sent and released, or not created at all. -/
theorem run_sendReply (peer : Connection) (event : Message) (body : Dictionary) (broker : Broker Key) :
    ∃ later, broker.nextObject ≤ later ∧ (sendReply peer event body).run broker =
      .ok ((), { broker with nextObject := later, sent := broker.sent ++ event.replies peer body }) := by
  cases expected : event.replyContext with
  | true => exact ⟨broker.nextObject + 1, Nat.le_succ _, by
      simp [sendReply, Message.replies, expected, run_release]⟩
  | false => exact ⟨broker.nextObject, le_rfl, by simp [sendReply, Message.replies, expected]⟩

variable [DecidableEq Key]

theorem Coherent.of_matches {env : Environment Key} {broker next : Broker Key} (coherent : Coherent env broker)
    (same : broker.Matches next) : Coherent env next :=
  coherent.congr same.registered same.heap same.peers same.sources same.idleTimer same.objects same.nextObject

/-- What a completed request returns to its handler, and the network layer it leaves behind. -/
inductive RequestEffect (env : Environment Key) (broker : Broker Key) (peer : Connection)
    (ctx : BrokerContext) (message : Message) (calls : Calls) :
    Option Object × Int32 → Broker Key → Prop
  | malformed (rejected : message.acquires = none) :
      RequestEffect env broker peer ctx message calls
        (none, VmnetBrokerReturn.invalidRequest.toInt) broker
  | acquire {name : CString} {key : Key} {result : Option Object × Int32} {core state : Broker Key}
      (requested : message.acquires = some name) (created : env.createWithCString name = some key)
      (ran : (acquireNetwork env peer name calls 0).run broker = .ok (result, state))
      (effect : AcquireEffect env broker peer ctx name key calls 0 result core) :
      RequestEffect env broker peer ctx message calls result core

variable {env : Environment Key} {broker core next : Broker Key} {peer : Connection} {ctx : BrokerContext}
  {message : Message} {calls : Calls} {result : Option Object × Int32} {name : CString}

omit [DecidableEq Key] in
theorem Message.acquires_eq_some (requested : message.acquires = some name) :
    message.body.getString requestCommand = some commandAcquire ∧
      message.body.getString requestNetworkName = some name := by
  unfold Message.acquires at requested
  split at requested
  · next command => exact ⟨command, requested⟩
  · contradiction

/-- The three guards of `on_peer_request` reject what is not an acquire. -/
theorem onPeerRequest_malformed (env : Environment Key) (peer : Connection) (calls : Calls)
    (rejected : message.acquires = none) : onPeerRequest env peer message calls =
      sendXpcError peer message VmnetBrokerReturn.invalidRequest.toInt := by
  unfold Message.acquires at rejected
  unfold onPeerRequest
  split
  · rfl
  · next command found =>
    split
    · rfl
    · next acquire =>
      rw [not_not] at acquire
      rw [if_pos (by rw [found, acquire])] at rejected
      rw [rejected]

omit [DecidableEq Key] in
/-- Replying to the result of an acquire gives back the reference that was handed out. -/
private theorem run_reply (peer : Connection) (core : Broker Key) (event : Message) (later : ℕ)
    (result : Option Object × Int32) :
    ∃ next, (match result with
        | (none, error) => sendXpcError peer event error
        | (some serialization, _) => do
          sendXpcNetwork peer event serialization
          release serialization : BrokerM Key Unit).run ((core.advance later).handOut result.1) =
        .ok ((), next) ∧ (core.advance later).Matches next ∧
      next.sent = core.sent ++ event.replies peer (replyBody result) := by
  obtain ⟨_ | serialization, error⟩ := result
  · obtain ⟨last, grows, sent⟩ := run_sendReply peer event (replyBody (none, error)) (core.advance later)
    exact ⟨_, sent, ⟨rfl, rfl, rfl, rfl, rfl, rfl, rfl, rfl, rfl, grows⟩, rfl⟩
  · obtain ⟨last, grows, sent⟩ := run_sendReply peer event
      (AList.singleton replyNetwork (.serialization serialization))
      ((core.advance later).handOut (some serialization))
    refine ⟨{ core.advance last with
      sent := core.sent ++ event.replies peer (replyBody (some serialization, error)) },
      ?_, ⟨rfl, rfl, rfl, rfl, rfl, rfl, rfl, rfl, rfl, grows⟩, rfl⟩
    simp only [StateT.run_bind, sendXpcNetwork, sent, ok_bind]
    rw [run_release (Multiset.mem_cons_self ..)]
    simp [Broker.handOut, Broker.advance, replyBody]

/-- A request completes with a listed effect, unless its name has no registry key. -/
theorem onPeerRequest_effect (coherent : Coherent env broker) (timed : broker.Timed)
    (found : broker.peers.lookup peer = some ctx)
    (valid : ∀ name, message.acquires = some name → name.ValidUtf8)
    (fresh : ∀ network ∈ calls.calloc, network ∉ broker.heap) :
    ∃ result core next, (onPeerRequest env peer message calls).run broker = .ok ((), next) ∧
      RequestEffect env broker peer ctx message calls result core ∧ core.Matches next ∧
      next.sent = broker.sent ++ message.replies peer (replyBody result) := by
  cases requested : message.acquires with
  | none =>
    obtain ⟨later, grows, sent⟩ := run_sendReply peer message
      (replyBody (none, VmnetBrokerReturn.invalidRequest.toInt)) broker
    rw [onPeerRequest_malformed env peer calls requested]
    exact ⟨_, _, _, sent, .malformed requested, ⟨rfl, rfl, rfl, rfl, rfl, rfl, rfl, rfl, rfl, grows⟩, rfl⟩
  | some name =>
    obtain ⟨command, named⟩ := Message.acquires_eq_some requested
    obtain ⟨key, created⟩ := env.exists_key (valid name requested)
    obtain ⟨result, core, later, grows, ran, effect⟩ :=
      acquireNetwork_effect 0 coherent timed found created fresh
    obtain ⟨next, replied, same, sent⟩ := run_reply peer core message later result
    refine ⟨result, core, next, ?_, .acquire requested created ran effect, ?_, ?_⟩
    · simp only [onPeerRequest, command, named, ne_eq, not_true_eq_false, if_false,
        StateT.run_bind, ran, ok_bind]
      exact replied
    · exact ⟨same.registered, same.heap, same.peers, same.connectedPeers, same.idleTimer,
        same.transactionBegins, same.transactionEnds, same.sources, same.objects,
        grows.trans same.nextObject⟩
    · rw [sent]
      cases effect <;> rfl

theorem RequestEffect.coherent (effect : RequestEffect env broker peer ctx message calls result core)
    (coherent : Coherent env broker) (found : broker.peers.lookup peer = some ctx) : Coherent env core := by
  cases effect with
  | malformed rejected => exact coherent
  | acquire requested created ran effect => exact effect.coherent coherent found created

theorem RequestEffect.timed (effect : RequestEffect env broker peer ctx message calls result core)
    (coherent : Coherent env broker) (timed : broker.Timed) : core.Timed := by
  cases effect with
  | malformed rejected => exact timed
  | acquire requested created ran effect => exact effect.timed coherent timed

/-- A block with a name had it before, or the request has just created the network of this name. -/
theorem RequestEffect.name_origin (effect : RequestEffect env broker peer ctx message calls result core)
    {network : Address} {after : Network} (lookup : core.heap.lookup network = some after)
    (named : after.name = some name) :
    (∃ before, broker.heap.lookup network = some before ∧ before.name = some name) ∨
      message.acquires = some name ∧
        ctx.networks.length < maxPeerNetworks ∧
        (∃ key, env.createWithCString name = some key ∧ broker.registered.lookup key = none) ∧
        ∃ config, env.networks.find? (·.name = name) = some config ∧ calls.creates config = true := by
  cases effect with
  | malformed rejected => exact Or.inl ⟨after, lookup, named⟩
  | acquire requested created ran effect =>
    cases effect with
    | owned | full | notFound | createFailure => exact Or.inl ⟨after, lookup, named⟩
    | @shared shared value _ registered unowned room live stored =>
      simp only [Broker.attach, AList.lookup_insert_eq] at lookup
      split at lookup
      · next same =>
        cases lookup
        exact Or.inl ⟨value, same ▸ live, named⟩
      · exact Or.inl ⟨after, lookup, named⟩
    | @created new config _ _ _ unregistered room configured good =>
      simp only [Broker.attach, Broker.enroll, AList.lookup_insert_eq] at lookup
      split at lookup
      · cases lookup
        obtain rfl := Option.some.inj named
        exact Or.inr ⟨requested, room, ⟨_, created, unregistered⟩, config, configured, good⟩
      · exact Or.inl ⟨after, lookup, named⟩

/-- A name without a registry key ends the process in the first dictionary call. -/
theorem run_onPeerRequest_invalid (requested : message.acquires = some name) (invalid : ¬ name.ValidUtf8) :
    (onPeerRequest env peer message calls).run broker = .error .nullKey := by
  obtain ⟨command, named⟩ := Message.acquires_eq_some requested
  have null : env.createWithCString name = none := by
    rw [← Option.not_isSome_iff_eq_none, env.createWithCString_isSome]
    exact invalid
  simp [onPeerRequest, command, named, acquireNetwork, initRegistry, run_registryGet_null null]

end VmnetBroker
