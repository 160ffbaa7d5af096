import VmnetBroker.Soundness.Requests

/-! # Agreement between the client and the broker

The client's result is a function of four facts about the state in which the broker handles the
request: whether the peer owns the named network, whether it has room for one more, whether the name
is registered, and whether every creation step succeeds. Every failing branch on the broker's side
assigns a nonzero code that survives the conversions to int64, int32 and the enum.
-/

namespace VmnetBroker

variable {Key : Type}

namespace Broker

/-- The peer holds fewer networks than it may. -/
def HasRoom (broker : Broker Key) (peer : Connection) : Prop :=
  ∃ ctx, broker.peers.lookup peer = some ctx ∧ ctx.networks.length < maxPeerNetworks

variable [DecidableEq Key]

/-- Some network is registered under the key of this name. -/
def IsRegistered (env : Environment Key) (broker : Broker Key) (name : CString) : Prop :=
  ∃ key network, env.createWithCString name = some key ∧ broker.registered.lookup key = some network

/-- The network registered under this name has this serialization. -/
def Serializes (env : Environment Key) (broker : Broker Key) (name : CString) (serialization : Object) : Prop :=
  ∃ key network value, env.createWithCString name = some key ∧
    broker.registered.lookup key = some network ∧ broker.heap.lookup network = some value ∧
    value.serialization = some serialization

end Broker

/-- The name is configured and every step of its creation succeeds. -/
def Environment.Creates (env : Environment Key) (calls : Calls) (name : CString) : Prop :=
  ∃ config, env.networks.find? (·.name = name) = some config ∧ calls.creates config = true

/-- The client returns the object of a network reply. -/
private theorem acquire_of_network {name : CString} {exchange : Message → Reply} {serialization : Object}
    {error : Int32} (replied : exchange (acquireRequest name) = .dictionary (replyBody (some serialization, error))) :
    vmnetBrokerAcquireNetwork name exchange = (some (.serialization serialization), .success) := by
  simp only [vmnetBrokerAcquireNetwork, decodeReply, replied, replyBody]
  rfl

/-- The client reports each code that a failing branch of the broker assigns. -/
private theorem acquire_of_error {name : CString} {exchange : Message → Reply} {status : VmnetBrokerReturn}
    (known : status ∈ [VmnetBrokerReturn.internalError, .notFound, .createFailure])
    (replied : exchange (acquireRequest name) = .dictionary (replyBody (none, status.toInt))) :
    vmnetBrokerAcquireNetwork name exchange = (none, status) := by
  simp only [List.mem_cons, List.not_mem_nil, or_false] at known
  simp only [vmnetBrokerAcquireNetwork, decodeReply, replied, replyBody]
  rcases known with rfl | rfl | rfl <;> rfl

variable [DecidableEq Key] {env : Environment Key} {broker next : Broker Key} {peer : Connection}
  {ctx : BrokerContext} {name : CString} {calls : Calls}

/-- The message that the broker sends in the step is what the client receives. -/
theorem response_eq {body : Dictionary}
    (running : outcome env broker (.peer peer (.dictionary (acquireRequest name)) calls) = .running next)
    (replied : next.sent = broker.sent ++ (acquireRequest name).replies peer body) :
    response env broker peer calls (acquireRequest name) = some (.dictionary body) := by
  have sent : (next.repliesTo peer).drop (broker.repliesTo peer).length = [body] := by
    simp [Broker.repliesTo, replied, Message.replies, acquireRequest]
  simp only [response, running, sent, List.head?_cons, Option.map_some]

theorem answer_eq {body : Dictionary}
    (running : outcome env broker (.peer peer (.dictionary (acquireRequest name)) calls) = .running next)
    (replied : next.sent = broker.sent ++ (acquireRequest name).replies peer body) :
    answer env broker peer calls (acquireRequest name) = .dictionary body := by
  rw [answer, response_eq running replied, Option.getD_some]

/-- What the client reports, in terms of the state before the request and the state after it. -/
structure ClientAgrees (env : Environment Key) (broker next : Broker Key) (peer : Connection) (name : CString)
    (calls : Calls) (reported : Option XpcObject × VmnetBrokerReturn) : Prop where
  success_iff : reported.2 = .success ↔ broker.Owns peer name ∨
    broker.HasRoom peer ∧ (broker.IsRegistered env name ∨ env.Creates calls name)
  serialization : reported.2 = .success → ∃ serialization, next.Serializes env name serialization ∧
    (broker.IsRegistered env name → broker.Serializes env name serialization) ∧
    reported = (some (.serialization serialization), .success)
  internalError_iff : reported = (none, .internalError) ↔ ¬ broker.Owns peer name ∧ ¬ broker.HasRoom peer
  notFound_iff : reported = (none, .notFound) ↔
    ¬ broker.Owns peer name ∧ broker.HasRoom peer ∧ ¬ env.Configured name
  createFailure_iff : reported = (none, .createFailure) ↔
    ¬ broker.Owns peer name ∧ broker.HasRoom peer ∧ env.Configured name ∧ ¬ broker.IsRegistered env name ∧
      ¬ env.Creates calls name
  valid : reported.2 ≠ .invalidRequest ∧ reported.2 ≠ .invalidReply
  object_iff : reported.1.isSome = true ↔ reported.2 = .success
  owns_iff : next.Owns peer name ↔ reported.2 = .success

private theorem statuses_distinct :
    (VmnetBrokerReturn.success ≠ .invalidRequest ∧ VmnetBrokerReturn.success ≠ .invalidReply) ∧
    ∀ status ∈ [VmnetBrokerReturn.internalError, .notFound, .createFailure],
      status ≠ .success ∧ status ≠ .invalidRequest ∧ status ≠ .invalidReply := by
  decide

/-- A reported success, from what the broker did. -/
private theorem ClientAgrees.of_success {serialization : Object}
    {reported : Option XpcObject × VmnetBrokerReturn}
    (decoded : reported = (some (.serialization serialization), .success))
    (cause : broker.Owns peer name ∨
      broker.HasRoom peer ∧ (broker.IsRegistered env name ∨ env.Creates calls name))
    (serializes : next.Serializes env name serialization)
    (before : broker.IsRegistered env name → broker.Serializes env name serialization)
    (owns : next.Owns peer name) (configured : env.Configured name) :
    ClientAgrees env broker next peer name calls reported := by
  subst decoded
  refine ⟨iff_of_true rfl cause, fun _ => ⟨serialization, serializes, before, rfl⟩, ?_, ?_, ?_,
    statuses_distinct.1, iff_of_true rfl rfl, iff_of_true owns rfl⟩
  · refine iff_of_false (by simp) ?_
    rintro ⟨unowned, full⟩
    rcases cause with owned | ⟨room, _⟩
    · exact unowned owned
    · exact full room
  · exact iff_of_false (by simp) fun absent => absent.2.2 configured
  · refine iff_of_false (by simp) ?_
    rintro ⟨unowned, _, _, unregistered, uncreated⟩
    rcases cause with owned | ⟨_, registered | creates⟩
    · exact unowned owned
    · exact unregistered registered
    · exact uncreated creates

/-- A reported failure, from the branch that the broker took. -/
private theorem ClientAgrees.of_failure {status : VmnetBrokerReturn}
    {reported : Option XpcObject × VmnetBrokerReturn} (decoded : reported = (none, status))
    (before : ¬ broker.Owns peer name) (after : ¬ next.Owns peer name)
    (branch : status = .internalError ∧ ¬ broker.HasRoom peer ∨
      broker.HasRoom peer ∧ ¬ broker.IsRegistered env name ∧ ¬ env.Creates calls name ∧
        (status = .notFound ∧ ¬ env.Configured name ∨ status = .createFailure ∧ env.Configured name)) :
    ClientAgrees env broker next peer name calls reported := by
  have known : status ∈ [VmnetBrokerReturn.internalError, .notFound, .createFailure] := by
    rcases branch with ⟨rfl, _⟩ | ⟨_, _, _, ⟨rfl, _⟩ | ⟨rfl, _⟩⟩ <;> decide
  obtain ⟨failed, notRequest, notReply⟩ := statuses_distinct.2 status known
  have different : VmnetBrokerReturn.internalError ≠ .notFound ∧
      VmnetBrokerReturn.internalError ≠ .createFailure ∧ VmnetBrokerReturn.notFound ≠ .createFailure := by
    decide
  subst decoded
  refine ⟨iff_of_false failed ?_, fun success => absurd success failed, ?_, ?_, ?_, ⟨notRequest, notReply⟩,
    iff_of_false (by simp) failed, iff_of_false after failed⟩
  · rintro (owned | ⟨room, possible⟩)
    · exact before owned
    · rcases branch with ⟨_, full⟩ | ⟨_, unregistered, uncreated, _⟩
      · exact full room
      · exact possible.elim unregistered uncreated
  all_goals
    rcases branch with ⟨rfl, full⟩ | ⟨room, unregistered, uncreated, ⟨rfl, missing⟩ | ⟨rfl, configured⟩⟩ <;>
      simp [*, different.1.symm, different.2.1.symm, different.2.2.symm]

omit [DecidableEq Key] in
/-- Ownership by name depends on contexts and blocks only. -/
private theorem Broker.Matches.owns_iff {core : Broker Key} (same : core.Matches next) :
    next.Owns peer name ↔ core.Owns peer name := by
  unfold Broker.Owns
  rw [same.peers, same.heap]

private theorem Broker.Matches.serializes_iff {core : Broker Key} (same : core.Matches next)
    (serialization : Object) : next.Serializes env name serialization ↔ core.Serializes env name serialization := by
  unfold Broker.Serializes
  rw [same.registered, same.heap]

/-- Each effect of an acquire, seen by the client. -/
private theorem AcquireEffect.agrees {key : Key} {result : Option Object × Int32} {core : Broker Key}
    {exchange : Message → Reply} (effect : AcquireEffect env broker peer ctx name key calls 0 result core)
    (wf : WellFormed env broker) (distinct : env.DistinctKeys) (found : broker.peers.lookup peer = some ctx)
    (created : env.createWithCString name = some key) (same : core.Matches next)
    (decoded : exchange (acquireRequest name) = .dictionary (replyBody result)) :
    ClientAgrees env broker next peer name calls (vmnetBrokerAcquireNetwork name exchange) := by
  have owns := wf.owns_iff distinct created found
  have roomy : broker.HasRoom peer ↔ ctx.networks.length < maxPeerNetworks :=
    ⟨fun ⟨_, lookup, room⟩ => (Option.some.inj (found.symm.trans lookup)) ▸ room,
      fun room => ⟨ctx, found, room⟩⟩
  have known : broker.IsRegistered env name ↔ ∃ network, broker.registered.lookup key = some network :=
    ⟨fun ⟨_, network, keyed, bound⟩ => ⟨network, (Option.some.inj (created.symm.trans keyed)) ▸ bound⟩,
      fun ⟨network, bound⟩ => ⟨key, network, created, bound⟩⟩
  cases effect with
  | @owned network value serialization registered member live stored =>
    have serializes : broker.Serializes env name serialization :=
      ⟨key, network, value, created, registered, live, stored⟩
    have owned := owns.mpr ⟨network, member, registered⟩
    exact .of_success (acquire_of_network decoded) (Or.inl owned) ((same.serializes_iff _).mpr serializes)
      (fun _ => serializes) (same.owns_iff.mpr owned) (wf.configured_of_registered distinct created registered)
  | @shared network value serialization registered unowned room live stored =>
    obtain ⟨_, storedName, storedLive, named, storedKey⟩ := wf.registered_named key network registered
    obtain rfl := Option.some.inj (live.symm.trans storedLive)
    obtain rfl := distinct _ _ key storedKey created
    have serializes : broker.Serializes env storedName serialization :=
      ⟨key, network, value, created, registered, live, stored⟩
    have attached : (broker.attach peer ctx network value).heap.lookup network =
        some { value with peers := value.peers + 1, idleTimer := none } := AList.lookup_insert _
    refine .of_success (acquire_of_network decoded)
      (Or.inr ⟨roomy.mpr room, Or.inl (known.mpr ⟨network, registered⟩)⟩) ?_ (fun _ => serializes) ?_
      (wf.configured_of_registered distinct created registered)
    · exact (same.serializes_iff _).mpr ⟨key, network, _, created, registered, attached, stored⟩
    · exact same.owns_iff.mpr ⟨_, network, _, AList.lookup_insert _, by simp, attached, named⟩
  | @created network config ref serialization later unregistered room configured good allocated absent kinds =>
    have absentKey : ¬ broker.IsRegistered env name := by
      rw [known]
      rintro ⟨other, bound⟩
      rw [unregistered] at bound
      contradiction
    refine .of_success (acquire_of_network decoded) (Or.inr ⟨roomy.mpr room, Or.inr ⟨config, configured, good⟩⟩)
      ?_ (fun registered => absurd registered absentKey) ?_ (env.configured_of_find configured)
    · exact (same.serializes_iff _).mpr
        ⟨key, network, _, created, AList.lookup_insert _, AList.lookup_insert _, rfl⟩
    · exact same.owns_iff.mpr ⟨_, network, _, AList.lookup_insert _, by simp, AList.lookup_insert _, rfl⟩
  | full unowned full =>
    have before : ¬ broker.Owns peer name := by
      rw [owns]
      rintro ⟨network, member, registered⟩
      exact unowned network registered member
    refine .of_failure (acquire_of_error (by simp) decoded) before ?_ (Or.inl ⟨rfl, ?_⟩)
    · rwa [same.owns_iff]
    · rw [roomy]
      omega
  | notFound unregistered room unconfigured =>
    have before : ¬ broker.Owns peer name := by simp [owns, unregistered]
    refine .of_failure (acquire_of_error (by simp) decoded) before (by rwa [same.owns_iff])
      (Or.inr ⟨roomy.mpr room, by simp [known, unregistered], ?_, Or.inl ⟨rfl, unconfigured⟩⟩)
    rintro ⟨config, lookup, _⟩
    exact unconfigured (env.configured_of_find lookup)
  | @createFailure config unregistered room configured bad =>
    have before : ¬ broker.Owns peer name := by simp [owns, unregistered]
    refine .of_failure (acquire_of_error (by simp) decoded) before (by rwa [same.owns_iff])
      (Or.inr ⟨roomy.mpr room, by simp [known, unregistered], ?_,
        Or.inr ⟨rfl, env.configured_of_find configured⟩⟩)
    rintro ⟨other, lookup, good⟩
    obtain rfl := Option.some.inj (configured.symm.trans lookup)
    rw [bad] at good
    contradiction

/-- The client's report agrees with the broker on every acquire of a valid name. -/
theorem client_agreement (distinct : env.DistinctKeys) (reachable : Reachable env broker)
    (valid : name.ValidUtf8)
    (enabled : Enabled broker (.peer peer (.dictionary (acquireRequest name)) calls)) :
    ∃ next, outcome env broker (.peer peer (.dictionary (acquireRequest name)) calls) = .running next ∧
      ClientAgrees env broker next peer name calls
        (vmnetBrokerAcquireNetwork name (answer env broker peer calls)) := by
  have wf := reachable.wellFormed
  have asks : (acquireRequest name).acquires = some name := rfl
  have convertible : ∀ other, (acquireRequest name).acquires = some other → other.ValidUtf8 := by
    intro other requested
    obtain rfl := Option.some.inj (asks.symm.trans requested)
    exact valid
  obtain ⟨next, ctx, result, core, running, found, effect, same, replied⟩ :=
    request_outcome wf enabled convertible
  refine ⟨next, running, ?_⟩
  cases effect with
  | malformed rejected => exact absurd (asks.symm.trans rejected) (by simp)
  | acquire requested created ran effect =>
    obtain rfl := Option.some.inj (asks.symm.trans requested)
    exact effect.agrees wf distinct found created same (answer_eq running replied)

theorem client_agreement_host : ∃ broker next, run builtinEnvironment sharedInUse = some broker ∧
    outcome builtinEnvironment broker
      (.peer 2 (.dictionary (acquireRequest (.ofString "host"))) { calloc := some 32 }) = .running next ∧
    next.Owns 2 (.ofString "host") ∧
    (vmnetBrokerAcquireNetwork (.ofString "host")
      (answer builtinEnvironment broker 2 { calloc := some 32 })).2 = .success := by
  have checked : (run builtinEnvironment sharedInUse).map (fun broker => (decide (Enabled broker
      (.peer 2 (.dictionary (acquireRequest (.ofString "host"))) { calloc := some 32 })),
      (vmnetBrokerAcquireNetwork (.ofString "host")
        (answer builtinEnvironment broker 2 { calloc := some 32 })).2)) = some (true, .success) := by
    decide +kernel
  obtain ⟨broker, ran, checks⟩ := Option.map_eq_some_iff.mp checked
  obtain ⟨enabled, success⟩ := Prod.mk.inj checks
  obtain ⟨next, running, agrees⟩ := client_agreement builtinEnvironment_distinctKeys ⟨sharedInUse, ran⟩
    (by decide : (CString.ofString "host").ValidUtf8) (of_decide_eq_true enabled)
  exact ⟨broker, next, ran, running, agrees.owns_iff.mpr success, success⟩

end VmnetBroker
