import VmnetBroker.Soundness.Ownership

/-! # Connection, transaction and reference accounting

The connection count follows the accepted and invalidated connections of the run itself, not only
the table of contexts. The transaction is open exactly while a peer is connected. While none is, after
the first, one armed source shuts the broker down, and it is the one in `idle_timer`. The ledger of
external references holds what the registered networks and the broker timer account for, each once,
after every event and whichever calls failed.
-/

namespace VmnetBroker

variable {Key : Type} [DecidableEq Key] {env : Environment Key} {broker next : Broker Key} {event : Event}

/-- How one event changes the connections that were accepted and not yet invalidated. -/
def trackConnection (live : List Connection) : Event → List Connection
  | .listener (.connection peer) => peer :: live
  | .peer peer .connectionInvalid _ => live.erase peer
  | _ => live

/-- The connections that are live after a sequence of events. -/
def liveConnections (events : List Event) : List Connection := events.foldl trackConnection []

theorem liveConnections_concat (events : List Event) (event : Event) :
    liveConnections (events ++ [event]) = trackConnection (liveConnections events) event := by
  simp [liveConnections, List.foldl_append]

theorem trackConnection_perm {left right : List Connection} (same : left.Perm right) (event : Event) :
    (trackConnection left event).Perm (trackConnection right event) := by
  unfold trackConnection
  split
  · exact same.cons _
  · exact same.erase _
  · exact same

/-- Some connection was accepted. -/
def Accepted (events : List Event) : Prop := ∃ peer, .listener (.connection peer) ∈ events

/-- A resumed source that is neither cancelled nor fired will run the handler. -/
def Broker.Armed (broker : Broker Key) (handler : Handler) : Prop :=
  ∃ source, broker.sources.lookup source = some handler

section Armed

variable {network : Address} {value : Network}

/-- The broker timer is armed exactly when `idle_timer` is set. -/
theorem Coherent.armed_shutdown (coherent : Coherent env broker) :
    broker.Armed .shutdown ↔ broker.idleTimer.isSome = true := by
  rw [Option.isSome_iff_exists]
  exact exists_congr coherent.broker_timer

/-- The timer of a network is armed exactly when its `idle_timer` is set. -/
theorem Coherent.armed_removeNetwork (coherent : Coherent env broker) (live : broker.heap.lookup network = some value) :
    broker.Armed (.removeNetwork network) ↔ value.idleTimer.isSome = true := by
  rw [Option.isSome_iff_exists]
  refine exists_congr fun source => ?_
  rw [coherent.network_timer source network]
  constructor
  · rintro ⟨other, found, timer⟩
    obtain rfl := Option.some.inj (live.symm.trans found)
    exact timer
  · exact fun timer => ⟨value, live, timer⟩

end Armed

section Lifecycle

/-- A request keeps the set of connections and the transaction counters. -/
private theorem RequestEffect.peers {peer : Connection} {ctx : BrokerContext} {message : Message} {calls : Calls}
    {result : Option Object × Int32} {core : Broker Key} (found : broker.peers.lookup peer = some ctx)
    (effect : RequestEffect env broker peer ctx message calls result core) :
    core.peers.keys.Perm broker.peers.keys ∧ core.transactionBegins = broker.transactionBegins := by
  have member : peer ∈ broker.peers.keys := AList.mem_of_lookup found
  have inserted (new : BrokerContext) : (broker.peers.insert peer new).keys.Perm broker.peers.keys := by
    rw [AList.keys_insert]
    exact (List.perm_cons_erase member).symm
  cases effect with
  | malformed rejected => exact ⟨.refl _, rfl⟩
  | acquire requested created ran effect =>
    cases effect with
    | owned | full | notFound | createFailure => exact ⟨.refl _, rfl⟩
    | shared | created => exact ⟨inserted _, rfl⟩

/-- The contexts belong to the live connections, and only accepting begins a transaction. -/
theorem StepEffect.tracked (wf : WellFormed env broker) (effect : StepEffect env broker event next) :
    next.peers.keys.Perm (trackConnection broker.peers.keys event) ∧
      (0 < next.transactionBegins ↔ 0 < broker.transactionBegins ∨ ∃ peer, event = .listener (.connection peer)) := by
  cases effect with
  | ignored harmless =>
    cases event with
    | listener event => cases event <;> simp_all [trackConnection, Event.Ignored]
    | peer peer event calls => cases event <;> simp_all [trackConnection, Event.Ignored]
    | timer source => contradiction
    | signal => simp [trackConnection]
  | @accepted peer absent =>
    refine ⟨?_, iff_of_true ?_ (Or.inr ⟨peer, rfl⟩)⟩
    · rw [Broker.welcome_peers, AList.keys_insert, List.erase_of_not_mem absent]
      exact .refl _
    · have accepted := wf.accept absent
      have connected := wf.connected
      have balanced := accepted.balanced
      rw [if_neg (by rw [Broker.welcome_connectedPeers]; omega)] at balanced
      omega
  | requested found effect same replied =>
    obtain ⟨keys, begins⟩ := effect.peers found
    rw [same.peers, same.transactionBegins, begins]
    exact ⟨keys, by simp⟩
  | disconnected found coherent timed emptied others released =>
    rw [Broker.farewell_peers, others, AList.keys_erase, Broker.farewell_transactionBegins,
      released.transactionBegins]
    exact ⟨.refl _, by simp⟩
  | removed found live armed split => exact ⟨.refl _, by simp [Broker.discard]⟩

/-- The contexts and the transaction count of a run follow its events. -/
theorem tracked_run {events : List Event} (ran : run env events = some broker) :
    broker.peers.keys.Perm (liveConnections events) ∧
      (0 < broker.transactionBegins ↔ Accepted events) := by
  have start : ({} : Broker Key).peers.keys.Perm (liveConnections []) ∧
      (0 < ({} : Broker Key).transactionBegins ↔ Accepted []) := ⟨.refl _, by simp [Accepted]⟩
  refine Machine.run_history (fun events broker => broker.peers.keys.Perm (liveConnections events) ∧
      (0 < broker.transactionBegins ↔ Accepted events)) start ?_ ran
  intro tape middle event target before history stepped
  have wf : WellFormed env middle := Reachable.wellFormed ⟨tape, before⟩
  obtain ⟨keys, begins⟩ := (step_effect wf stepped).tracked wf
  rw [liveConnections_concat]
  refine ⟨keys.trans (trackConnection_perm history.1 event), ?_⟩
  rw [begins, history.2]
  simp only [Accepted, List.mem_append, List.mem_singleton]
  constructor
  · rintro (⟨peer, old⟩ | ⟨peer, now⟩)
    · exact ⟨peer, Or.inl old⟩
    · exact ⟨peer, Or.inr now.symm⟩
  · rintro ⟨peer, old | now⟩
    · exact Or.inl ⟨peer, old⟩
    · exact Or.inr ⟨peer, now.symm⟩

/-- Counter, transaction and armed broker timer follow the live connections, the armed source is the one
in `idle_timer`, and arming never meets a running timer. -/
theorem lifecycle_accounting (events : List Event) (ran : run env events = some broker) :
    broker.connectedPeers = (liveConnections events).length ∧ 0 ≤ broker.connectedPeers ∧
    (broker.transactionBegins : ℤ) - broker.transactionEnds = (if 0 < broker.connectedPeers then 1 else 0) ∧
    (broker.Armed .shutdown ↔ broker.connectedPeers = 0 ∧ Accepted events) ∧
    (∀ source, broker.sources.lookup source = some .shutdown ↔ broker.idleTimer = some source) ∧
    (broker.idleTimer.isSome = true ↔ broker.connectedPeers = 0 ∧ Accepted events) ∧
    ∀ event, Enabled broker event → outcome env broker event ≠ .crashed .brokerTimerRunning := by
  have wf : WellFormed env broker := Reachable.wellFormed ⟨events, ran⟩
  obtain ⟨keys, begins⟩ := tracked_run ran
  have connected := wf.connected
  have balanced := wf.balanced
  have length : broker.peers.entries.length = (liveConnections events).length := by
    rw [← keys.length_eq, AList.keys, List.keys, List.length_map]
  have scheduled : broker.idleTimer.isSome = true ↔ broker.connectedPeers = 0 ∧ Accepted events := by
    rw [wf.scheduled, begins]
  refine ⟨by omega, by omega, ?_, ?_, wf.broker_timer, scheduled,
    fun event enabled => wf.outcome_ne (by simp) (by simp) enabled⟩
  · split_ifs at balanced ⊢ <;> omega
  · rw [wf.armed_shutdown, scheduled]

theorem lifecycle_accounting_addressReuse : ∃ broker, run builtinEnvironment addressReuse = some broker ∧
    broker.connectedPeers = 1 ∧ broker.transactionBegins = 2 ∧ broker.transactionEnds = 1 := by
  have checked : (run builtinEnvironment addressReuse).map (·.transactionBegins) = some 2 := by decide +kernel
  obtain ⟨broker, ran, begins⟩ := Option.map_eq_some_iff.mp checked
  obtain ⟨connected, _, balance, _⟩ := lifecycle_accounting addressReuse ran
  have one : broker.connectedPeers = 1 := connected
  refine ⟨broker, ran, one, begins, ?_⟩
  rw [begins, one] at balance
  simp at balance
  omega

end Lifecycle

section References

/-- The blocks of the registered networks. -/
def Broker.registeredNetworks (broker : Broker Key) : List Network :=
  broker.registered.entries.filterMap fun entry => broker.heap.lookup entry.2

/-- How many references of each kind a registered network should hold. -/
def Network.expected (value : Network) : ObjectKind → ℕ
  | .network => 1
  | .serialization => 1
  | .source => if value.peers = 0 then 1 else 0
  | .configuration => 0
  | .reply => 0
  | .key => 0

/-- How many references of each kind the broker should own between two events. -/
def Broker.expected (broker : Broker Key) : ObjectKind → ℕ
  | .network => broker.registered.entries.length
  | .serialization => broker.registered.entries.length
  | .source => broker.registeredNetworks.countP (·.peers = 0) + if broker.idleTimer.isSome then 1 else 0
  | .configuration => 0
  | .reply => 0
  | .key => 0

/-- The registered addresses are the allocated addresses. -/
private theorem Coherent.values_perm (coherent : Coherent env broker) :
    (broker.registered.entries.map (·.2)).Perm broker.heap.keys := by
  refine (List.perm_ext_iff_of_nodup coherent.values_nodup broker.heap.keys_nodup).mpr ?_
  intro network
  rw [List.mem_map]
  constructor
  · rintro ⟨entry, member, rfl⟩
    exact coherent.live_of_registered (List.mem_dlookup broker.registered.nodupKeys member)
  · intro live
    obtain ⟨key, found⟩ := coherent.live_registered network live
    exact ⟨⟨key, network⟩, List.of_mem_dlookup found, rfl⟩

private theorem Coherent.registeredNetworks_perm (coherent : Coherent env broker) :
    broker.registeredNetworks.Perm (broker.heap.entries.map (·.2)) := by
  have read := coherent.values_perm.filterMap broker.heap.lookup
  rw [List.filterMap_map, AList.filterMap_lookup_keys] at read
  exact read

private theorem WellFormed.references_kind (wf : WellFormed env broker) {network : Address} {value : Network}
    (live : broker.heap.lookup network = some value) (kind : ObjectKind) :
    value.references.countP (·.kind = kind) = value.expected kind := by
  obtain ⟨ref, serialization, refSet, serializationSet, refKind, serializationKind⟩ :=
    wf.complete network value live
  have timed := wf.timed network value live
  cases armed : value.idleTimer with
  | none =>
    have busy : value.peers ≠ 0 := by simpa [armed] using timed
    cases kind <;> simp [Network.references, Network.expected, refSet, serializationSet, armed, refKind,
      serializationKind, busy]
  | some timer =>
    have idle : value.peers = 0 := by simpa [armed] using timed
    have source : timer.kind = .source := wf.source_kind timer
      (AList.mem_of_lookup ((wf.network_timer timer network).mpr ⟨value, live, armed⟩))
    cases kind <;> simp [Network.references, Network.expected, refSet, serializationSet, armed, refKind,
      serializationKind, idle, source]

/-- The ledger is the sum of what the registered networks and the broker timer hold. -/
private theorem Coherent.objects_eq (coherent : Coherent env broker) :
    broker.objects = (broker.registeredNetworks.map Network.references).sum + broker.idleTimer.toList := by
  have same := (coherent.registeredNetworks_perm.map Network.references).sum_eq
  rw [List.map_map] at same
  rw [coherent.ledger, Broker.accounted, same]
  rfl

private theorem WellFormed.countP_objects (wf : WellFormed env broker) (kind : ObjectKind) :
    broker.objects.countP (·.kind = kind) = broker.expected kind := by
  have length : broker.registeredNetworks.length = broker.registered.entries.length := by
    have left := wf.toCoherent.registeredNetworks_perm.length_eq
    have right := wf.toCoherent.values_perm.length_eq
    simp only [List.length_map, AList.keys, List.keys] at left right
    omega
  have live : ∀ value ∈ broker.registeredNetworks, ∃ network, broker.heap.lookup network = some value := by
    intro value member
    obtain ⟨entry, _, lookup⟩ := List.mem_filterMap.mp member
    exact ⟨entry.2, lookup⟩
  have timer : Multiset.countP (·.kind = kind) (broker.idleTimer.toList : Multiset Object) =
      if kind = .source ∧ broker.idleTimer.isSome then 1 else 0 := by
    cases armed : broker.idleTimer with
    | none => simp
    | some timer =>
      have source : timer.kind = .source := wf.source_kind timer
        (AList.mem_of_lookup ((wf.broker_timer timer).mpr armed))
      rw [Option.toList_some, Multiset.coe_singleton, ← Multiset.cons_zero, Multiset.countP_cons, source]
      cases kind <;> simp
  have sum : Multiset.countP (·.kind = kind) (broker.registeredNetworks.map Network.references).sum =
      (broker.registeredNetworks.map (·.expected kind)).sum := by
    rw [← Multiset.coe_countPAddMonoidHom, map_list_sum, List.map_map]
    congr 1
    apply List.map_congr_left
    intro value member
    obtain ⟨network, lookup⟩ := live value member
    exact wf.references_kind lookup kind
  rw [wf.toCoherent.objects_eq, Multiset.countP_add, sum, timer]
  cases kind with
  | source =>
    have idle : (broker.registeredNetworks.map (·.expected .source)).sum =
        broker.registeredNetworks.countP (·.peers = 0) := by
      rw [List.countP_eq_sum]
      simp only [Network.expected, decide_eq_true_eq]
    simp [Broker.expected, idle]
  | network | serialization | configuration | reply | key =>
    simp [Broker.expected, Network.expected, length]

/-- The broker owns exactly the references that its registered networks and its timer need, each of
them once; it never releases one that it does not own; and shutdown leaves nothing of a network. -/
theorem reference_conservation (events : List Event) (ran : run env events = some broker) :
    (∀ kind, broker.objects.countP (·.kind = kind) = broker.expected kind) ∧
    broker.objects.Nodup ∧
    broker.objects = (broker.registeredNetworks.map Network.references).sum + broker.idleTimer.toList ∧
    (∀ value ∈ broker.registeredNetworks, ∃ ref serialization,
      value.ref = some ref ∧ ref.kind = .network ∧
      value.serialization = some serialization ∧ serialization.kind = .serialization ∧
      (value.idleTimer.isSome = true ↔ value.peers = 0)) ∧
    ∀ event, Enabled broker event →
      (∀ object, outcome env broker event ≠ .crashed (.overRelease object)) ∧
      ∀ exit final, outcome env broker event = .exited exit final → exit ≠ .listenerFailed →
        final.heap = ∅ ∧ final.objects = broker.idleTimer.toList := by
  have wf : WellFormed env broker := Reachable.wellFormed ⟨events, ran⟩
  refine ⟨wf.countP_objects, wf.distinct, wf.toCoherent.objects_eq, ?_, ?_⟩
  · intro value member
    obtain ⟨entry, _, live⟩ := List.mem_filterMap.mp member
    obtain ⟨ref, serialization, refSet, serializationSet, refKind, serializationKind⟩ :=
      wf.complete entry.2 value live
    exact ⟨ref, serialization, refSet, refKind, serializationSet, serializationKind,
      wf.timed entry.2 value live⟩
  · intro event enabled
    refine ⟨fun object => wf.outcome_ne (by simp) (by simp) enabled, ?_⟩
    intro exit final exited orderly
    have effect := outcome_effect wf enabled
    rw [exited] at effect
    cases effect with
    | shutdown stops registry heap objects => exact ⟨heap, objects⟩
    | listenerFailed => exact absurd rfl orderly

theorem reference_conservation_addressReuse : ∃ broker, run builtinEnvironment addressReuse = some broker ∧
    broker.objects.countP (·.kind = .network) = 1 ∧ broker.objects.countP (·.kind = .configuration) = 0 := by
  have checked : (run builtinEnvironment addressReuse).map (·.registered.entries.length) = some 1 := by
    decide +kernel
  obtain ⟨broker, ran, registered⟩ := Option.map_eq_some_iff.mp checked
  obtain ⟨counts, _⟩ := reference_conservation addressReuse ran
  exact ⟨broker, ran, (counts .network).trans registered, counts .configuration⟩

end References

end VmnetBroker
