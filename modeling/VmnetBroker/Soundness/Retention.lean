import VmnetBroker.Soundness.Requests

/-! # A network in use is never destroyed or replaced

A registered network leaves the registry in one way while the process runs: its own timer fires.
That timer has been armed since the last peer left and nobody has acquired the network since. While
a peer that acquired a name stays connected, the name therefore stays bound to the same network, and
neither timer nor signal can end the process.
-/

namespace VmnetBroker

variable {Key : Type} [DecidableEq Key]

/-- The peer, the name and the object of an acquire that `acquire_network` granted. -/
def granted (env : Environment Key) (broker : Broker Key) : Event → Option (Connection × CString × Object)
  | .peer peer (.dictionary message) calls =>
    match message.acquires with
    | none => none
    | some name =>
      match (acquireNetwork env peer name calls 0).run broker with
      | .ok ((some serialization, _), _) => some (peer, name, serialization)
      | _ => none
  | _ => none

/-- The event grants this network to some peer. -/
def Grants (env : Environment Key) (broker : Broker Key) (event : Event) (network : Address) : Prop :=
  ∃ peer name serialization key, granted env broker event = some (peer, name, serialization) ∧
    env.createWithCString name = some key ∧ broker.registered.lookup key = some network

/-- The step invalidates a connection, the peer count of the network drops to zero, and its timer is
armed. -/
def Arms (network : Address) (timer : Object) (broker : Broker Key) (event : Event) (next : Broker Key) : Prop :=
  (∃ peer calls, event = .peer peer .connectionInvalid calls) ∧
    ∃ before after, broker.heap.lookup network = some before ∧ 0 < before.peers ∧ before.idleTimer = none ∧
      next.heap.lookup network = some after ∧ after.peers = 0 ∧ after.idleTimer = some timer

/-- The step leaves the block alone and grants the network to nobody. -/
def Spares (env : Environment Key) (network : Address) (broker : Broker Key) (event : Event)
    (next : Broker Key) : Prop :=
  next.heap.lookup network = broker.heap.lookup network ∧ ¬ Grants env broker event network

variable {env : Environment Key} {broker core next : Broker Key} {event : Event} {peer : Connection}
  {ctx : BrokerContext} {network : Address} {value : Network} {key : Key} {name : CString}
  {serialization : Object} {message : Message} {calls : Calls} {result : Option Object × Int32}

/-- Only a request can be granted, and then `acquire_network` returned the object. -/
theorem granted_eq_some (grant : granted env broker event = some (peer, name, serialization)) :
    ∃ message calls error state, event = .peer peer (.dictionary message) calls ∧
      message.acquires = some name ∧
      (acquireNetwork env peer name calls 0).run broker = .ok ((some serialization, error), state) := by
  unfold granted at grant
  split at grant
  · split at grant
    · contradiction
    · next requested =>
      split at grant
      · next ran =>
        cases grant
        exact ⟨_, _, _, _, rfl, requested, ran⟩
      · contradiction
  · contradiction

/-- A granted request has one of the three successful effects. -/
theorem RequestEffect.of_granted (effect : RequestEffect env broker peer ctx message calls result core)
    (grant : granted env broker (.peer peer (.dictionary message) calls) = some (peer, name, serialization)) :
    ∃ key error, env.createWithCString name = some key ∧
      AcquireEffect env broker peer ctx name key calls 0 (some serialization, error) core := by
  obtain ⟨_, _, error, state, same, requested, ran⟩ := granted_eq_some grant
  cases same
  cases effect with
  | malformed rejected => exact absurd (requested.symm.trans rejected) (by simp)
  | acquire asked created acquired effect =>
    obtain rfl := Option.some.inj (requested.symm.trans asked)
    obtain ⟨rfl, rfl⟩ := Prod.mk.inj (Except.ok.inj (ran.symm.trans acquired))
    exact ⟨_, error, created, effect⟩

section Timer

variable {timer : Object}

/-- Nobody is granted an idle network by a request that leaves its timer armed. -/
private theorem RequestEffect.timer_origin (effect : RequestEffect env broker peer ctx message calls result core)
    (wf : WellFormed env broker) (found : broker.peers.lookup peer = some ctx) {after : Network}
    (lookup : core.heap.lookup network = some after) (armed : after.idleTimer = some timer) :
    broker.heap.lookup network = some after ∧
      ¬ Grants env broker (.peer peer (.dictionary message) calls) network := by
  have attached {base : Broker Key} {held : Address} {stored : Network}
      (live : (base.attach peer ctx held stored).heap.lookup network = some after) :
      network ≠ held ∧ base.heap.lookup network = some after := by
    simp only [Broker.attach, AList.lookup_insert_eq] at live
    split at live
    · cases live; contradiction
    · next different => exact ⟨different, live⟩
  have origin : broker.heap.lookup network = some after := by
    cases effect with
    | malformed rejected => exact lookup
    | acquire requested created ran effect =>
      cases effect with
      | owned | full | notFound | createFailure => exact lookup
      | shared => exact (attached lookup).2
      | created =>
        obtain ⟨different, live⟩ := attached lookup
        exact (AList.lookup_insert_ne different).symm.trans live
  refine ⟨origin, ?_⟩
  rintro ⟨sender, name, serialization, key, grant, keyed, registered⟩
  have sameSender : sender = peer := by
    obtain ⟨_, _, _, _, same, _⟩ := granted_eq_some grant
    cases same
    rfl
  subst sameSender
  obtain ⟨_, error, created, acquired⟩ := effect.of_granted grant
  obtain rfl := Option.some.inj (keyed.symm.trans created)
  cases acquired with
  | owned bound member live stored =>
    obtain rfl := Option.some.inj (registered.symm.trans bound)
    have idle : after.peers = 0 := (wf.timed network after origin).mp (by simp [armed])
    have counted := wf.counted network after origin
    have positive := owners_pos found member
    omega
  | shared bound unowned room live stored =>
    obtain rfl := Option.some.inj (registered.symm.trans bound)
    exact (attached lookup).1 rfl
  | created unregistered =>
    rw [unregistered] at registered
    contradiction

/-- An armed network timer was armed in this step by the last peer, or was there before. -/
theorem StepEffect.timer_origin (effect : StepEffect env broker event next) (wf : WellFormed env broker)
    {after : Network} (lookup : next.heap.lookup network = some after) (armed : after.idleTimer = some timer) :
    Arms network timer broker event next ∨
      broker.heap.lookup network = some after ∧ Spares env network broker event next := by
  have ungranted (quiet : granted env broker event = none) : ¬ Grants env broker event network := by
    rintro ⟨_, _, _, _, grant, _⟩
    rw [quiet] at grant
    contradiction
  cases effect with
  | ignored harmless =>
    refine Or.inr ⟨lookup, rfl, ungranted ?_⟩
    cases event with
    | peer _ event _ => cases event <;> first | rfl | contradiction
    | listener | timer | signal => rfl
  | accepted absent =>
    rw [Broker.welcome_heap] at lookup
    exact Or.inr ⟨lookup, by simp, ungranted rfl⟩
  | requested found effect same replied =>
    rw [same.heap] at lookup
    obtain ⟨origin, unasked⟩ := effect.timer_origin wf found lookup armed
    exact Or.inr ⟨origin, by rw [same.heap, lookup, origin], unasked⟩
  | @disconnected peer ctx calls middle found coherent timed emptied others released =>
    rw [Broker.farewell_heap] at lookup
    by_cases popped : network ∈ ctx.networks
    · obtain ⟨before, live⟩ := AList.exists_lookup (wf.held_live peer ctx found network popped)
      obtain ⟨newTimer, lowered⟩ := released.lowered network popped before live
      have positive := owners_pos found popped
      have counted := wf.counted network before live
      have idle : after.peers = 0 := (timed network after lookup).mp (by simp [armed])
      have unarmed : before.idleTimer = none := by
        rw [← Option.not_isSome_iff_eq_none, wf.timed network before live]
        omega
      exact Or.inl ⟨⟨peer, calls, rfl⟩, before, after, live, by omega, unarmed, by simpa using lookup, idle, armed⟩
    · have origin : broker.heap.lookup network = some after := by
        rw [← lookup]
        exact (released.untouched network popped).symm
      exact Or.inr ⟨origin, by simpa [origin] using lookup, ungranted rfl⟩
  | removed bound live armed split =>
    simp only [Broker.discard, AList.lookup_erase_eq] at lookup
    split at lookup
    · contradiction
    · next different =>
      exact Or.inr ⟨lookup, AList.lookup_erase_ne different, ungranted rfl⟩

end Timer

section Holder

/-- The peer holds this network, registered under this key with this serialization. -/
def Broker.Holds (broker : Broker Key) (peer : Connection) (key : Key) (network : Address)
    (serialization : Object) : Prop :=
  broker.registered.lookup key = some network ∧
    (∃ value, broker.heap.lookup network = some value ∧ value.serialization = some serialization) ∧
    ∃ ctx, broker.peers.lookup peer = some ctx ∧ network ∈ ctx.networks

theorem Broker.Holds.of_matches (holds : broker.Holds peer key network serialization)
    (same : broker.Matches next) : next.Holds peer key network serialization := by
  unfold Broker.Holds at holds ⊢
  rwa [same.registered, same.heap, same.peers]

/-- A granted request makes its sender a holder of what it returned. -/
theorem RequestEffect.holds (effect : RequestEffect env broker peer ctx message calls result core)
    (found : broker.peers.lookup peer = some ctx)
    (grant : granted env broker (.peer peer (.dictionary message) calls) = some (peer, name, serialization)) :
    ∃ key network, env.createWithCString name = some key ∧ core.Holds peer key network serialization := by
  obtain ⟨key, error, created, acquired⟩ := effect.of_granted grant
  refine ⟨key, ?_⟩
  cases acquired with
  | owned registered member live stored => exact ⟨_, created, registered, ⟨_, live, stored⟩, ctx, found, member⟩
  | shared registered unowned room live stored =>
    exact ⟨_, created, registered, ⟨_, AList.lookup_insert _, stored⟩, _, AList.lookup_insert _, by simp⟩
  | created =>
    exact ⟨_, created, AList.lookup_insert _, ⟨_, AList.lookup_insert _, rfl⟩, _, AList.lookup_insert _, by simp⟩

/-- A held network survives every step but the invalidation of its holder. -/
theorem Broker.Holds.effect (holds : broker.Holds peer key network serialization) (wf : WellFormed env broker)
    (effect : StepEffect env broker event next)
    (connected : ∀ calls, event ≠ .peer peer .connectionInvalid calls) :
    next.Holds peer key network serialization := by
  obtain ⟨registered, ⟨value, live, stored⟩, ctx, found, member⟩ := holds
  obtain ⟨more, context⟩ := effect.context wf found connected
  rcases effect.keeps wf registered with ⟨still, keeps⟩ | ⟨source, other, _, lookup, armed⟩
  · obtain ⟨after, afterLive, _, afterStored⟩ := keeps value live
    exact ⟨still, ⟨after, afterLive, afterStored.trans stored⟩, _, context, List.mem_append_left _ member⟩
  · obtain rfl := Option.some.inj (live.symm.trans lookup)
    have idle : value.peers = 0 := (wf.timed network value live).mp (by simp [armed])
    have counted := wf.counted network value live
    have positive := owners_pos found member
    omega

/-- A granted acquire makes its sender a holder. -/
theorem Broker.Holds.of_granted (wf : WellFormed env broker) (stepped : step env broker event = some next)
    (grant : granted env broker event = some (peer, name, serialization)) :
    ∃ key network, env.createWithCString name = some key ∧ next.Holds peer key network serialization := by
  obtain ⟨message, calls, _, _, rfl, _⟩ := granted_eq_some grant
  cases step_effect wf stepped with
  | ignored harmless => contradiction
  | requested found effect same replied =>
    obtain ⟨key, network, created, held⟩ := effect.holds found grant
    exact ⟨key, network, created, held.of_matches same⟩

/-- A holder stays one for the rest of any run that does not invalidate its connection. -/
theorem Broker.Holds.run (holds : broker.Holds peer key network serialization) (wf : WellFormed env broker)
    {later : List Event} {final : Broker Key} (continued : Machine.run (step env) broker later = some final)
    (connected : ∀ calls, .peer peer .connectionInvalid calls ∉ later) :
    final.Holds peer key network serialization := by
  have kept : WellFormed env final ∧ final.Holds peer key network serialization := by
    refine Machine.run_invariant (fun event => ∀ calls, event ≠ .peer peer .connectionInvalid calls)
      (fun state => WellFormed env state ∧ state.Holds peer key network serialization)
      ?_ ⟨wf, holds⟩ ?_ continued
    · rintro state label after ⟨stateWf, held⟩ allowed moved
      exact ⟨stateWf.step moved, held.effect stateWf (step_effect stateWf moved) allowed⟩
    · rintro label member calls rfl
      exact connected calls member
  exact kept.2

/-- While a network is held, the process ends neither by a timer nor by a signal. -/
theorem Broker.Holds.outlives (holds : broker.Holds peer key network serialization) (wf : WellFormed env broker)
    {exit : Exit} {final : Broker Key} (enabled : Enabled broker event)
    (exited : outcome env broker event = .exited exit final) : exit = .listenerFailed := by
  obtain ⟨_, _, ctx, found, _⟩ := holds
  have connected := wf.connected
  have length := AList.length_erase_of_lookup found
  have effect := outcome_effect wf enabled
  rw [exited] at effect
  cases effect with
  | listenerFailed => rfl
  | shutdown stops =>
    have idle := stops.connectedPeers wf
    omega

/-- The key of a held network leads to one serialization. -/
theorem Broker.Holds.serialization_eq (holds : broker.Holds peer key network serialization) {other : Address}
    (bound : broker.registered.lookup key = some other) (live : broker.heap.lookup other = some value)
    {again : Object} (returned : value.serialization = some again) : again = serialization := by
  obtain ⟨registered, ⟨held, lookup, stored⟩, _⟩ := holds
  obtain rfl := Option.some.inj (registered.symm.trans bound)
  obtain rfl := Option.some.inj (lookup.symm.trans live)
  exact Option.some.inj (returned.symm.trans stored)

/-- A name that is held is granted with the serialization of the held network only. -/
theorem Broker.Holds.unique (holds : broker.Holds peer key network serialization) (wf : WellFormed env broker)
    (created : env.createWithCString name = some key) (enabled : Enabled broker event) {other : Connection}
    {again : Object} (grant : granted env broker event = some (other, name, again)) : again = serialization := by
  obtain ⟨message, calls, error, state, rfl, requested, ran⟩ := granted_eq_some grant
  obtain ⟨member, fresh⟩ := enabled
  obtain ⟨ctx, found⟩ := AList.exists_lookup member
  obtain ⟨result, core, later, _, acquired, effect⟩ :=
    acquireNetwork_effect 0 wf.toCoherent wf.timed found created fresh
  obtain ⟨rfl, _⟩ := Prod.mk.inj (Except.ok.inj (ran.symm.trans acquired))
  cases effect with
  | owned bound member live returned => exact holds.serialization_eq bound live returned
  | shared bound unowned room live returned => exact holds.serialization_eq bound live returned
  | created unregistered =>
    rw [holds.1] at unregistered
    contradiction

end Holder

section Runs

/-- A network leaves the registry of a running broker only when the timer fires that its last peer
armed by leaving, and nobody was granted the network since. -/
def LeavesOnlyWhenIdle (env : Environment Key) : Prop :=
  ∀ events broker event next key network, run env events = some broker → step env broker event = some next →
    broker.registered.lookup key = some network → next.registered.lookup key ≠ some network →
    ∃ source value, event = .timer source ∧ broker.heap.lookup network = some value ∧ value.peers = 0 ∧
      value.idleTimer = some source ∧
      Machine.Since (step env) (Arms network source) (Spares env network) {} events broker

/-- The networks are shut down, and the process exits, only while no peer is connected. -/
def ExitsOnlyWithoutPeers (env : Environment Key) : Prop :=
  ∀ events broker event exit final, run env events = some broker → Enabled broker event →
    outcome env broker event = .exited exit final → exit ≠ .listenerFailed →
    broker.connectedPeers = 0 ∧ broker.peers = ∅

/-- From a granted acquire until the invalidation of its connection, the process does not exit, the
network stays registered, and every grant of the name returns the same serialization. -/
def RetainsWhileConnected (env : Environment Key) : Prop :=
  ∀ events broker event next later final peer name serialization, run env events = some broker →
    step env broker event = some next → granted env broker event = some (peer, name, serialization) →
    Machine.run (step env) next later = some final →
    (∀ calls, .peer peer .connectionInvalid calls ∉ later) →
    (∀ event exit after, Enabled final event → outcome env final event = .exited exit after →
      exit = .listenerFailed) ∧
    (∃ key network value, env.createWithCString name = some key ∧
      next.registered.lookup key = some network ∧ final.registered.lookup key = some network ∧
      final.heap.lookup network = some value ∧ value.serialization = some serialization) ∧
    ∀ event other again, Enabled final event → granted env final event = some (other, name, again) →
      again = serialization

/-- No two live networks have the same name. -/
def NamesAreUnique (env : Environment Key) : Prop :=
  ∀ events broker first second (left right : Network) name, run env events = some broker →
    broker.heap.lookup first = some left → broker.heap.lookup second = some right →
    left.name = some name → right.name = some name → first = second

private theorem leavesOnlyWhenIdle (env : Environment Key) : LeavesOnlyWhenIdle env := by
  intro events broker event next key network ran stepped found lost
  have wf : WellFormed env broker := Reachable.wellFormed ⟨events, ran⟩
  rcases (step_effect wf stepped).keeps wf found with ⟨kept, _⟩ | ⟨source, value, fired, live, armed⟩
  · exact absurd kept lost
  · have idle : value.peers = 0 := (wf.timed network value live).mp (by simp [armed])
    refine ⟨source, value, fired, live, idle, armed, ?_⟩
    refine Machine.since_of_run (fun state => ∃ value, state.heap.lookup network = some value ∧
      value.idleTimer = some source) (by simp) ?_ ran ⟨value, live, armed⟩
    rintro tape middle label target before moved ⟨after, lookup, running⟩
    have middleWf : WellFormed env middle := Reachable.wellFormed ⟨tape, before⟩
    rcases (step_effect middleWf moved).timer_origin middleWf lookup running with arms | ⟨origin, spares⟩
    · exact Or.inl arms
    · exact Or.inr ⟨⟨after, origin, running⟩, spares⟩

private theorem exitsOnlyWithoutPeers (env : Environment Key) : ExitsOnlyWithoutPeers env := by
  intro events broker event exit final ran enabled exited orderly
  have wf : WellFormed env broker := Reachable.wellFormed ⟨events, ran⟩
  have effect := outcome_effect wf enabled
  rw [exited] at effect
  cases effect with
  | listenerFailed => exact absurd rfl orderly
  | shutdown stops =>
    have idle := stops.connectedPeers wf
    have connected := wf.connected
    refine ⟨idle, AList.ext (List.eq_nil_of_length_eq_zero ?_)⟩
    omega

private theorem retainsWhileConnected (env : Environment Key) : RetainsWhileConnected env := by
  intro events broker event next later final peer name serialization ran stepped grant continued connected
  have wf : WellFormed env broker := Reachable.wellFormed ⟨events, ran⟩
  obtain ⟨key, network, created, holds⟩ := Broker.Holds.of_granted wf stepped grant
  have finalWf := (wf.step stepped).run continued
  have held := holds.run (wf.step stepped) continued connected
  obtain ⟨value, live, stored⟩ := held.2.1
  refine ⟨fun event exit after enabled exited => held.outlives finalWf enabled exited,
    ⟨key, network, value, created, holds.1, held.1, live, stored⟩,
    fun event other again enabled again_granted => held.unique finalWf created enabled again_granted⟩

private theorem namesAreUnique (env : Environment Key) : NamesAreUnique env := by
  intro events broker first second left right name ran firstLive secondLive firstNamed secondNamed
  have wf : WellFormed env broker := Reachable.wellFormed ⟨events, ran⟩
  have keyed {network : Address} {value : Network} (live : broker.heap.lookup network = some value)
      (named : value.name = some name) :
      ∃ key, env.createWithCString name = some key ∧ broker.registered.lookup key = some network := by
    obtain ⟨key, found⟩ := wf.live_registered network (AList.mem_of_lookup live)
    obtain ⟨stored, storedName, storedLive, storedNamed, created⟩ := wf.registered_named key network found
    obtain rfl := Option.some.inj (live.symm.trans storedLive)
    obtain rfl := Option.some.inj (named.symm.trans storedNamed)
    exact ⟨key, created, found⟩
  obtain ⟨key, created, found⟩ := keyed firstLive firstNamed
  obtain ⟨other, otherCreated, otherFound⟩ := keyed secondLive secondNamed
  obtain rfl := Option.some.inj (created.symm.trans otherCreated)
  exact Option.some.inj (found.symm.trans otherFound)

/-- A network in use is never destroyed or replaced. -/
theorem network_in_use_is_kept (env : Environment Key) : LeavesOnlyWhenIdle env ∧ ExitsOnlyWithoutPeers env ∧
    RetainsWhileConnected env ∧ NamesAreUnique env :=
  ⟨leavesOnlyWhenIdle env, exitsOnlyWithoutPeers env, retainsWhileConnected env, namesAreUnique env⟩

/-- A first peer acquires a network. -/
def acquireShared : Event :=
  .peer 1 (.dictionary (acquireRequest (.ofString "shared"))) { calloc := some 16 }

/-- A second peer shares the network and leaves; a signal arrives while both are connected. -/
def sharing : List Event :=
  [.listener (.connection 2), .peer 2 (.dictionary (acquireRequest (.ofString "shared"))) {}, .signal,
    .peer 2 .connectionInvalid {}]

theorem network_in_use_is_kept_shared : ∃ broker next final,
    run builtinEnvironment [.listener (.connection 1)] = some broker ∧
    step builtinEnvironment broker acquireShared = some next ∧
    Machine.run (step builtinEnvironment) next sharing = some final ∧
    ∃ network, next.registered.lookup (CString.ofString "shared").bytes = some network ∧
      final.registered.lookup (CString.ofString "shared").bytes = some network := by
  have checked : (run builtinEnvironment [.listener (.connection 1)]).bind (fun broker =>
      (step builtinEnvironment broker acquireShared).bind fun next =>
      (Machine.run (step builtinEnvironment) next sharing).map fun _ =>
        granted builtinEnvironment broker acquireShared) =
      some (some (1, .ofString "shared", ⟨.serialization, 3⟩)) := by decide +kernel
  obtain ⟨broker, ran, rest⟩ := Option.bind_eq_some_iff.mp checked
  obtain ⟨next, stepped, rest⟩ := Option.bind_eq_some_iff.mp rest
  obtain ⟨final, continued, grant⟩ := Option.map_eq_some_iff.mp rest
  obtain ⟨_, ⟨key, network, value, created, before, after, _⟩, _⟩ :=
    (network_in_use_is_kept builtinEnvironment).2.2.1 _ _ _ _ _ _ _ _ _ ran stepped grant continued
      (by simp [sharing])
  have keyed : builtinEnvironment.createWithCString (.ofString "shared") =
      some (CString.ofString "shared").bytes := by decide
  obtain rfl := Option.some.inj (keyed.symm.trans created)
  exact ⟨broker, next, final, ran, stepped, continued, network, before, after⟩

end Runs

end VmnetBroker
