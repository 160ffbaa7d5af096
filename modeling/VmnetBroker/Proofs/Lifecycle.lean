import VmnetBroker.Proofs.Disconnect

/-! # Peers coming and going, the broker timer and shutdown

The connection count, the transaction and the broker timer change only on the edges between no
peer and one peer. Each handler of `broker.c` that crosses such an edge gets one equation here, on
coherent states; what the edges add up to over a run is stated with the whole step.
-/

namespace VmnetBroker

open BrokerM

variable {Key : Type}

namespace Broker

/-- Disarm and give back the broker timer, if it is armed. -/
def unschedule (broker : Broker Key) : Broker Key :=
  { broker with
    idleTimer := none
    sources := broker.idleTimer.elim broker.sources broker.sources.erase
    objects := broker.idleTimer.elim broker.objects broker.objects.erase }

/-- Arm the broker timer. -/
def schedule (broker : Broker Key) : Broker Key :=
  { broker with
    idleTimer := some ⟨.source, broker.nextObject⟩
    sources := broker.sources.insert ⟨.source, broker.nextObject⟩ .shutdown
    objects := ⟨.source, broker.nextObject⟩ ::ₘ broker.objects
    nextObject := broker.nextObject + 1 }

/-- The state after a connection has been accepted. -/
def welcome (broker : Broker Key) (peer : Connection) : Broker Key :=
  let arrived := { broker with
    peers := broker.peers.insert peer {}
    connectedPeers := broker.connectedPeers + 1 }
  if broker.connectedPeers + 1 = 1 then
    { arrived with transactionBegins := broker.transactionBegins + 1 }.unschedule
  else arrived

/-- The state after a peer that is no longer counted and owns no network is gone. -/
def farewell (broker : Broker Key) (peer : Connection) : Broker Key :=
  let left := { broker with peers := broker.peers.erase peer }
  if broker.connectedPeers = 0 then
    { left with transactionEnds := broker.transactionEnds + 1 }.schedule
  else left

/-- The state after the timer of an unused network has fired. -/
def discard [DecidableEq Key] (broker : Broker Key) (key : Key) (network : Address) (source : Object)
    (rest : Multiset Object) : Broker Key :=
  { broker with
    registry := some (broker.registered.erase key)
    heap := broker.heap.erase network
    sources := broker.sources.erase source
    objects := rest
    nextObject := broker.nextObject + 1 }

section Frame

variable (broker : Broker Key) (peer : Connection)

@[simp] theorem welcome_registered : (broker.welcome peer).registered = broker.registered := by
  unfold welcome; split <;> rfl

@[simp] theorem welcome_heap : (broker.welcome peer).heap = broker.heap := by
  unfold welcome; split <;> rfl

@[simp] theorem welcome_peers : (broker.welcome peer).peers = broker.peers.insert peer {} := by
  unfold welcome; split <;> rfl

@[simp] theorem welcome_connectedPeers : (broker.welcome peer).connectedPeers = broker.connectedPeers + 1 := by
  unfold welcome; split <;> rfl

@[simp] theorem welcome_sent : (broker.welcome peer).sent = broker.sent := by
  unfold welcome; split <;> rfl

@[simp] theorem farewell_registered : (broker.farewell peer).registered = broker.registered := by
  unfold farewell; split <;> rfl

@[simp] theorem farewell_heap : (broker.farewell peer).heap = broker.heap := by
  unfold farewell; split <;> rfl

@[simp] theorem farewell_peers : (broker.farewell peer).peers = broker.peers.erase peer := by
  unfold farewell; split <;> rfl

@[simp] theorem farewell_transactionBegins :
    (broker.farewell peer).transactionBegins = broker.transactionBegins := by
  unfold farewell; split <;> rfl

@[simp] theorem farewell_connectedPeers : (broker.farewell peer).connectedPeers = broker.connectedPeers := by
  unfold farewell; split <;> rfl

@[simp] theorem farewell_sent : (broker.farewell peer).sent = broker.sent := by
  unfold farewell; split <;> rfl

end Frame

end Broker

variable [DecidableEq Key] {env : Environment Key} {broker : Broker Key} {peer : Connection}

namespace Coherent

/-- A new peer owns nothing. -/
theorem arrive (coherent : Coherent env broker) (absent : peer ∉ broker.peers) :
    Coherent env { broker with peers := broker.peers.insert peer {} } := { coherent with
  held_nodup := by
    intro other ctx lookup
    rw [AList.lookup_insert_eq] at lookup
    split at lookup
    · cases lookup; exact List.nodup_nil
    · exact coherent.held_nodup other ctx lookup
  held_bounded := by
    intro other ctx lookup
    rw [AList.lookup_insert_eq] at lookup
    split at lookup
    · cases lookup; exact Nat.zero_le _
    · exact coherent.held_bounded other ctx lookup
  held_live := by
    intro other ctx lookup
    rw [AList.lookup_insert_eq] at lookup
    split at lookup
    · cases lookup; simp
    · exact coherent.held_live other ctx lookup
  counted := by
    intro network value live
    rw [owners_insert_new absent]
    exact coherent.counted network value live }

/-- A peer that has released its networks may be forgotten. -/
theorem leave (coherent : Coherent env broker) (emptied : broker.peers.lookup peer = some {}) :
    Coherent env { broker with peers := broker.peers.erase peer } := by
  have remains : ∀ other ctx, (broker.peers.erase peer).lookup other = some ctx →
      broker.peers.lookup other = some ctx := by
    intro other ctx lookup
    rw [AList.lookup_erase_eq] at lookup
    split at lookup
    · contradiction
    · exact lookup
  exact { coherent with
    held_nodup := fun other ctx lookup => coherent.held_nodup other ctx (remains other ctx lookup)
    held_bounded := fun other ctx lookup => coherent.held_bounded other ctx (remains other ctx lookup)
    held_live := fun other ctx lookup => coherent.held_live other ctx (remains other ctx lookup)
    counted := by
      intro network value live
      rw [owners_erase_empty emptied]
      exact coherent.counted network value live }

/-- The armed broker timer is a referenced object. -/
theorem broker_timer_owned (coherent : Coherent env broker) {timer : Object}
    (armed : broker.idleTimer = some timer) : timer ∈ broker.objects :=
  coherent.source_owned (AList.mem_of_lookup ((coherent.broker_timer timer).mpr armed))

/-- Cancelling the broker timer touches no network. -/
theorem unschedule (coherent : Coherent env broker) : Coherent env broker.unschedule := by
  cases armed : broker.idleTimer with
  | none =>
    refine coherent.congr ?_ ?_ ?_ ?_ ?_ ?_ ?_ <;> simp [Broker.unschedule, Broker.registered, armed]
  | some timer =>
    have source := (coherent.broker_timer timer).mpr armed
    have ledger := coherent.ledger
    simp only [Broker.unschedule, armed, Option.elim_some]
    exact { coherent with
      network_timer := by
        intro other network
        rw [← coherent.network_timer, AList.lookup_erase_eq]
        split
        · next same => rw [same, source]; simp
        · rfl
      broker_timer := by
        intro other
        rw [AList.lookup_erase_eq]
        split
        · simp
        · next different =>
          rw [coherent.broker_timer, armed]
          simpa using Ne.symm different
      source_kind := fun other member => coherent.source_kind other (AList.mem_erase.mp member).2
      ledger := by
        rw [Broker.accounted, armed, Option.toList_some, Multiset.coe_singleton, Multiset.add_comm,
          Multiset.singleton_add] at ledger
        rw [ledger, Multiset.erase_cons_head]
        exact (add_zero _).symm
      distinct := coherent.distinct.erase timer
      fresh := fun object member => coherent.fresh object (Multiset.mem_of_mem_erase member) }

/-- Arming the broker timer touches no network. -/
theorem schedule (coherent : Coherent env broker) (unarmed : broker.idleTimer = none) :
    Coherent env broker.schedule := by
  have unused : broker.sources.lookup ⟨.source, broker.nextObject⟩ = none :=
    AList.lookup_eq_none.mpr coherent.source_fresh
  have ledger := coherent.ledger
  exact { coherent with
    network_timer := by
      intro other network
      simp only [Broker.schedule]
      rw [← coherent.network_timer, AList.lookup_insert_eq]
      split
      · next same => rw [same, unused]; simp
      · rfl
    broker_timer := by
      intro other
      simp only [Broker.schedule]
      rw [AList.lookup_insert_eq]
      split
      · next same => simp [same]
      · next different =>
        rw [coherent.broker_timer, unarmed]
        simpa using Ne.symm different
    source_kind := by
      intro source member
      rcases (AList.mem_insert _).mp member with rfl | old
      · rfl
      · exact coherent.source_kind source old
    ledger := by
      rw [Broker.accounted, unarmed, Option.toList_none, Multiset.coe_nil, add_zero] at ledger
      simp only [Broker.schedule, Broker.accounted, Option.toList_some, Multiset.coe_singleton]
      rw [ledger, Multiset.add_comm, Multiset.singleton_add]
    distinct := Multiset.nodup_cons.mpr
      ⟨fun member => (coherent.fresh _ member).false, coherent.distinct⟩
    fresh := by
      intro object member
      rcases Multiset.mem_cons.mp member with rfl | old
      · exact Nat.lt_succ_self _
      · exact (coherent.fresh object old).trans (Nat.lt_succ_self _) }

end Coherent

omit [DecidableEq Key] in
theorem run_cancelShutdown (broker : Broker Key) (owned : ∀ timer ∈ broker.idleTimer, timer ∈ broker.objects) :
    cancelShutdown.run broker = .ok ((), broker.unschedule) := by
  cases armed : broker.idleTimer with
  | none =>
    have same : broker.unschedule = broker := by
      simp only [Broker.unschedule, armed, Option.elim_none]
      rw [← armed]
    rw [same]
    simp [cancelShutdown, armed]
  | some timer =>
    simp [cancelShutdown, armed, run_release, owned timer armed, Broker.unschedule]

theorem run_handleConnection (coherent : Coherent env broker) (peer : Connection) :
    (handleConnection peer).run broker = .ok ((), broker.welcome peer) := by
  have cancelled := run_cancelShutdown { broker with
      peers := broker.peers.insert peer {}
      connectedPeers := broker.connectedPeers + 1
      transactionBegins := broker.transactionBegins + 1 } fun timer armed => coherent.broker_timer_owned armed
  by_cases first : broker.connectedPeers + 1 = 1
  · simp only [handleConnection, onPeerConnect, StateT.run_bind, run_setContext, ok_bind, StateT.run_modify,
      StateT.run_get, pure_eq_ok, if_pos first, Broker.welcome]
    exact cancelled
  · simp only [handleConnection, onPeerConnect, StateT.run_bind, run_setContext, ok_bind, StateT.run_modify,
      StateT.run_get, pure_eq_ok, if_neg first, Broker.welcome]
    rfl

omit [DecidableEq Key] in
theorem run_shutdownLater (broker : Broker Key) (calls : Calls) (unarmed : broker.idleTimer = none) :
    (shutdownLater calls).run broker =
      if calls.dispatchSourceCreate then .ok ((), broker.schedule) else .error .sourceCreateFailed := by
  cases created : calls.dispatchSourceCreate with
  | true => simp [shutdownLater, unarmed, run_createSource _ created, Broker.schedule]
  | false => simp [shutdownLater, unarmed, createSource, created]

/-- The invalidation of a connection releases its networks and forgets it, unless a timer that is
due cannot be created. -/
theorem run_connectionInvalid (calls : Calls) {ctx : BrokerContext} (coherent : Coherent env broker)
    (timed : broker.Timed) (found : broker.peers.lookup peer = some ctx)
    (unarmed : broker.connectedPeers - 1 = 0 → broker.idleTimer = none) :
    ((peerHandler env peer calls .connectionInvalid).run broker = .error .sourceCreateFailed ∧
        calls.dispatchSourceCreate = false) ∨
      ∃ middle, (peerHandler env peer calls .connectionInvalid).run broker = .ok ((), middle.farewell peer) ∧
        Coherent env middle ∧ middle.Timed ∧ middle.peers.lookup peer = some {} ∧
        middle.peers.erase peer = broker.peers.erase peer ∧
        { broker with connectedPeers := broker.connectedPeers - 1 }.Released middle ctx.networks := by
  have uncounted : Coherent env { broker with connectedPeers := broker.connectedPeers - 1 } :=
    coherent.congr rfl rfl rfl rfl rfl rfl le_rfl
  have stillFound : { broker with connectedPeers := broker.connectedPeers - 1 }.peers.lookup peer = some ctx :=
    found
  simp only [peerHandler, onPeerDisconnect, releasePeerNetworks, StateT.run_bind, StateT.run_modify, pure_eq_ok,
    ok_bind, run_context stillFound]
  rcases run_releaseNetworks calls ctx.networks uncounted timed stillFound with ⟨failed, uncreated⟩ | loop
  · exact Or.inl ⟨by rw [failed]; rfl, uncreated⟩
  · obtain ⟨middle, released, middleCoherent, middleTimed, emptied, others, effect⟩ := loop
    rw [released]
    simp only [ok_bind, StateT.run_get, pure_eq_ok]
    by_cases last : middle.connectedPeers = 0
    · have count : broker.connectedPeers - 1 = 0 := effect.connectedPeers.symm.trans last
      have idle : { middle with transactionEnds := middle.transactionEnds + 1 }.idleTimer = none :=
        effect.idleTimer.trans (unarmed count)
      rw [if_pos last]
      simp only [StateT.run_bind, StateT.run_modify, pure_eq_ok, ok_bind, run_shutdownLater _ calls idle]
      cases created : calls.dispatchSourceCreate with
      | false => exact Or.inl ⟨rfl, rfl⟩
      | true =>
        refine Or.inr ⟨middle, ?_, middleCoherent, middleTimed, emptied, others, effect⟩
        simp only [Broker.farewell, if_pos last]
        rfl
    · refine Or.inr ⟨middle, ?_, middleCoherent, middleTimed, emptied, others, effect⟩
      simp only [Broker.farewell, if_neg last]
      rfl

/-- A firing network timer removes the network that captured it, and no other. -/
theorem run_timerHandler_network {source : Object} {network : Address} (coherent : Coherent env broker)
    (armed : broker.sources.lookup source = some (.removeNetwork network)) :
    ∃ key value rest, broker.registered.lookup key = some network ∧
      broker.heap.lookup network = some value ∧ value.idleTimer = some source ∧
      broker.objects = value.references + rest ∧
      (timerHandler env source).run broker = .ok (none, broker.discard key network source rest) := by
  obtain ⟨value, live, timer⟩ := (coherent.network_timer source network).mp armed
  obtain ⟨key, found⟩ := coherent.live_registered network (AList.mem_of_lookup live)
  obtain ⟨stored, name, storedLive, named, created⟩ := coherent.registered_named key network found
  obtain rfl := Option.some.inj (live.symm.trans storedLive)
  obtain ⟨rest, split⟩ := coherent.references_split live
  have initialized : broker.registry = some broker.registered := by
    cases registry : broker.registry with
    | none =>
      simp only [Broker.registered, registry, Option.getD_none, AList.lookup_empty] at found
      contradiction
    | some table => simp [Broker.registered, registry]
  have stillLive : { broker with sources := broker.sources.erase source }.heap.lookup network = some value := live
  have removed := run_registryRemove { broker with sources := broker.sources.erase source } created initialized
    found live split
  have erased : (broker.sources.erase source).erase source = broker.sources.erase source :=
    AList.erase_of_notMem fun member => (AList.mem_erase.mp member).1 rfl
  refine ⟨key, value, rest, found, live, timer, split, ?_⟩
  simp only [timerHandler, StateT.run_bind, StateT.run_get, pure_eq_ok, ok_bind, armed, StateT.run_modify,
    removeNetworkHandler, run_load stillLive, named, removed, timer, Option.elim_some, erased]
  rfl

omit [DecidableEq Key] in
/-- Releasing registry values one by one gives back the references of each. -/
private theorem run_releaseValues (networks : List Address) (broker : Broker Key) {rest : Multiset Object}
    (nodup : networks.Nodup) (live : ∀ network ∈ networks, network ∈ broker.heap)
    (ledger : broker.objects = broker.heap.total Network.references + rest) :
    ∃ next, (releaseValues networks).run broker = .ok ((), next) ∧
      next.objects = next.heap.total Network.references + rest ∧
      ∀ network, network ∈ next.heap ↔ network ∈ broker.heap ∧ network ∉ networks := by
  induction networks generalizing broker with
  | nil => exact ⟨broker, rfl, ledger, by simp⟩
  | cons network tail ih =>
    obtain ⟨absent, tailNodup⟩ := List.nodup_cons.mp nodup
    obtain ⟨value, found⟩ := AList.exists_lookup (live network (List.mem_cons_self ..))
    have split : broker.objects = value.references + ((broker.heap.erase network).total Network.references + rest) := by
      rw [ledger, AList.total_of_lookup _ found, add_assoc]
    have freed := run_freeNetwork broker found split
    have tailLive : ∀ other ∈ tail, other ∈ broker.heap.erase network := by
      intro other member
      refine AList.mem_erase.mpr ⟨?_, live other (List.mem_cons_of_mem _ member)⟩
      rintro rfl
      exact absent member
    obtain ⟨next, ran, nextLedger, members⟩ := ih { broker with
        heap := broker.heap.erase network
        sources := value.idleTimer.elim broker.sources broker.sources.erase
        objects := (broker.heap.erase network).total Network.references + rest } tailNodup tailLive rfl
    refine ⟨next, ?_, nextLedger, ?_⟩
    · rw [releaseValues, StateT.run_bind, registryRelease, freed]
      exact ran
    · intro other
      rw [members, AList.mem_erase, List.mem_cons]
      tauto

/-- No two keys are bound to one network. -/
theorem Coherent.values_nodup (coherent : Coherent env broker) :
    (broker.registered.entries.map (·.2)).Nodup := by
  have lookup : ∀ entry ∈ broker.registered.entries, broker.registered.lookup entry.1 = some entry.2 :=
    fun entry member => List.mem_dlookup broker.registered.nodupKeys member
  refine List.Nodup.map_on ?_ (List.NodupKeys.nodup broker.registered.nodupKeys)
  rintro ⟨first, network⟩ left ⟨second, other⟩ right same
  change network = other at same
  subst same
  have keys : first = second := coherent.key_unique (lookup _ left) (lookup _ right)
  rw [keys]

/-- Shutdown gives back every network, serialization and network timer, and nothing else. -/
theorem run_shutdownNetworks (coherent : Coherent env broker) (sources : AList fun _ : Object => Handler) :
    ∃ final, shutdownNetworks.run { broker with sources := sources } = .ok ((), final) ∧
      final.registry = none ∧ final.heap = ∅ ∧ final.objects = broker.idleTimer.toList := by
  cases initialized : broker.registry with
  | none =>
    have empty : broker.heap = ∅ := by
      apply AList.eq_empty_of_forall_notMem
      intro network member
      obtain ⟨key, found⟩ := coherent.live_registered network member
      simp [Broker.registered, initialized] at found
    have ledger := coherent.ledger
    rw [Broker.accounted, empty, AList.total_empty, zero_add] at ledger
    refine ⟨{ broker with sources := sources }, ?_, initialized, empty, ledger⟩
    simp [shutdownNetworks, initialized]
  | some registry =>
    have same : broker.registered = registry := by simp [Broker.registered, initialized]
    have live : ∀ network ∈ registry.entries.map (·.2), network ∈ broker.heap := by
      intro network member
      obtain ⟨⟨key, _⟩, bound, rfl⟩ := List.mem_map.mp member
      exact coherent.live_of_registered (same ▸ List.mem_dlookup registry.nodupKeys bound)
    obtain ⟨next, ran, ledger, members⟩ := run_releaseValues (registry.entries.map (·.2))
      { broker with sources := sources } (same ▸ coherent.values_nodup) live coherent.ledger
    have empty : next.heap = ∅ := by
      apply AList.eq_empty_of_forall_notMem
      intro network member
      obtain ⟨old, unreleased⟩ := (members network).mp member
      obtain ⟨key, found⟩ := coherent.live_registered network old
      rw [same] at found
      exact unreleased (List.mem_map.mpr ⟨⟨key, network⟩, List.of_mem_dlookup found, rfl⟩)
    rw [empty, AList.total_empty, zero_add] at ledger
    refine ⟨{ next with registry := none }, ?_, rfl, empty, ledger⟩
    rw [initialized] at ran
    simp only [shutdownNetworks, StateT.run_bind, StateT.run_get, pure_eq_ok, ok_bind, ran]
    rfl

end VmnetBroker
