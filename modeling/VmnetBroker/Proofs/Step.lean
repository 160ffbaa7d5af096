import VmnetBroker.Proofs.Lifecycle

/-! # Every step, and what every reachable state satisfies

`OutcomeEffect` says once what the handler of an enabled event can do: run on with one of five
effects, exit without peers, exit on a listener error, or end at the unchecked key or at the
assertion on a new dispatch source. `WellFormed` is the invariant of all runs. Nothing outside
this module unfolds a handler.
-/

namespace VmnetBroker

open BrokerM

variable {Key : Type} [DecidableEq Key]

/-- The invariant of every state between two events. -/
structure WellFormed (env : Environment Key) (broker : Broker Key) : Prop extends Coherent env broker where
  timed : broker.Timed
  configured : ∀ network value name, broker.heap.lookup network = some value → value.name = some name →
    env.Configured name
  connected : broker.connectedPeers = broker.peers.entries.length
  balanced : broker.transactionBegins =
    broker.transactionEnds + if broker.connectedPeers = 0 then 0 else 1
  scheduled : broker.idleTimer.isSome = true ↔ broker.connectedPeers = 0 ∧ 0 < broker.transactionBegins

/-- Events that leave the state alone. -/
def Event.Ignored (broker : Broker Key) : Event → Prop
  | .listener .other => True
  | .peer _ .error _ => True
  | .peer _ .other _ => True
  | .signal => 0 < broker.connectedPeers
  | _ => False

/-- What an event that does not end the process can do. -/
inductive StepEffect (env : Environment Key) (broker : Broker Key) : Event → Broker Key → Prop
  | ignored {event : Event} (harmless : event.Ignored broker) : StepEffect env broker event broker
  | accepted {peer : Connection} (absent : peer ∉ broker.peers) :
      StepEffect env broker (.listener (.connection peer)) (broker.welcome peer)
  | requested {peer : Connection} {ctx : BrokerContext} {message : Message} {calls : Calls}
      {result : Option Object × Int32} {core next : Broker Key}
      (found : broker.peers.lookup peer = some ctx)
      (effect : RequestEffect env broker peer ctx message calls result core) (same : core.Matches next)
      (replied : next.sent = broker.sent ++ message.replies peer (replyBody result)) :
      StepEffect env broker (.peer peer (.dictionary message) calls) next
  | disconnected {peer : Connection} {ctx : BrokerContext} {calls : Calls} {middle : Broker Key}
      (found : broker.peers.lookup peer = some ctx) (coherent : Coherent env middle) (timed : middle.Timed)
      (emptied : middle.peers.lookup peer = some {})
      (others : middle.peers.erase peer = broker.peers.erase peer)
      (released : { broker with connectedPeers := broker.connectedPeers - 1 }.Released middle ctx.networks) :
      StepEffect env broker (.peer peer .connectionInvalid calls) (middle.farewell peer)
  | removed {source : Object} {network : Address} {key : Key} {value : Network} {rest : Multiset Object}
      (found : broker.registered.lookup key = some network) (live : broker.heap.lookup network = some value)
      (armed : value.idleTimer = some source) (split : broker.objects = value.references + rest) :
      StepEffect env broker (.timer source) (broker.discard key network source rest)

/-- The two events that shut an unused broker down. -/
def Event.Stops (broker : Broker Key) : Event → Exit → Prop
  | .signal, .signal => broker.connectedPeers ≤ 0
  | .timer source, .idleTimeout => broker.idleTimer = some source
  | _, _ => False

/-- Everything that the handler of an enabled event can do. -/
inductive OutcomeEffect (env : Environment Key) (broker : Broker Key) : Event → Outcome Key → Prop
  | running {event : Event} {next : Broker Key} (effect : StepEffect env broker event next) :
      OutcomeEffect env broker event (.running next)
  | shutdown {event : Event} {exit : Exit} {final : Broker Key} (stops : event.Stops broker exit)
      (registry : final.registry = none) (heap : final.heap = ∅)
      (objects : final.objects = broker.idleTimer.toList) :
      OutcomeEffect env broker event (.exited exit final)
  | listenerFailed : OutcomeEffect env broker (.listener .error) (.exited .listenerFailed broker)
  | nullKey {peer : Connection} {message : Message} {calls : Calls} {name : CString}
      (requested : message.acquires = some name) (invalid : ¬ name.ValidUtf8) :
      OutcomeEffect env broker (.peer peer (.dictionary message) calls) (.crashed .nullKey)
  | sourceCreateFailed {peer : Connection} {calls : Calls} (uncreated : calls.dispatchSourceCreate = false) :
      OutcomeEffect env broker (.peer peer .connectionInvalid calls) (.crashed .sourceCreateFailed)

variable {env : Environment Key} {broker next : Broker Key} {event : Event} {peer : Connection}

/-- The broker timer is not armed while a peer is connected. -/
theorem WellFormed.unarmed (wf : WellFormed env broker) (found : peer ∈ broker.peers) :
    broker.idleTimer = none := by
  rw [← Option.not_isSome_iff_eq_none, wf.scheduled]
  rintro ⟨none, _⟩
  obtain ⟨ctx, lookup⟩ := AList.exists_lookup found
  have length := AList.length_erase_of_lookup lookup
  have connected := wf.connected
  omega

/-- The broker shuts down only while nobody is connected. -/
theorem Event.Stops.connectedPeers {exit : Exit} (stops : event.Stops broker exit) (wf : WellFormed env broker) :
    broker.connectedPeers = 0 := by
  unfold Event.Stops at stops
  split at stops
  · have connected := wf.connected
    omega
  · exact (wf.scheduled.mp (by simp [stops])).1
  · contradiction

theorem outcome_of_ok {next : Broker Key} {exit : Option Exit}
    (ran : (handle env event).run broker = .ok (exit, next)) :
    outcome env broker event = exit.elim (.running next) fun exit => .exited exit next := by
  unfold outcome
  rw [ran]
  cases exit <;> rfl

theorem outcome_of_error {fault : Fault} (ran : (handle env event).run broker = .error fault) :
    outcome env broker event = .crashed fault := by
  unfold outcome
  rw [ran]

/-- The unchecked conversion of a name ends the process. -/
theorem outcome_unconvertible {message : Message} {name : CString} (requested : message.acquires = some name)
    (invalid : ¬ name.ValidUtf8) (calls : Calls) :
    outcome env broker (.peer peer (.dictionary message) calls) = .crashed .nullKey := by
  apply outcome_of_error
  simp only [handle, peerHandler, StateT.run_bind, run_onPeerRequest_invalid requested invalid]
  rfl

private theorem outcome_listener (wf : WellFormed env broker) {event : ListenerEvent}
    (enabled : Enabled broker (.listener event)) :
    OutcomeEffect env broker (.listener event) (outcome env broker (.listener event)) := by
  cases event with
  | error => exact .listenerFailed
  | connection peer =>
    have ran : (handle env (.listener (.connection peer))).run broker = .ok (none, broker.welcome peer) := by
      simp only [handle, listenerHandler, StateT.run_bind, run_handleConnection wf.toCoherent peer, ok_bind]
      rfl
    rw [outcome_of_ok ran]
    exact .running (.accepted enabled)
  | other => exact .running (.ignored trivial)

private theorem outcome_peer (wf : WellFormed env broker) {event : PeerEvent} {calls : Calls}
    (enabled : Enabled broker (.peer peer event calls)) :
    OutcomeEffect env broker (.peer peer event calls) (outcome env broker (.peer peer event calls)) := by
  obtain ⟨member, fresh⟩ := enabled
  obtain ⟨ctx, found⟩ := AList.exists_lookup member
  cases event with
  | connectionInvalid =>
    rcases run_connectionInvalid calls wf.toCoherent wf.timed found fun _ => wf.unarmed member with
      ⟨failed, uncreated⟩ | ⟨middle, ran, coherent, timed, emptied, others, released⟩
    · rw [outcome_of_error (by simp only [handle, StateT.run_bind, failed]; rfl)]
      exact .sourceCreateFailed uncreated
    · have handled : (handle env (.peer peer .connectionInvalid calls)).run broker =
          .ok (none, middle.farewell peer) := by
        simp only [handle, StateT.run_bind, ran]
        rfl
      rw [outcome_of_ok handled]
      exact .running (.disconnected found coherent timed emptied others released)
  | error => exact .running (.ignored trivial)
  | dictionary message =>
    by_cases valid : ∀ name, message.acquires = some name → name.ValidUtf8
    · obtain ⟨result, core, next, ran, effect, same, replied⟩ :=
        onPeerRequest_effect wf.toCoherent wf.timed found valid fresh
      have handled : (handle env (.peer peer (.dictionary message) calls)).run broker = .ok (none, next) := by
        simp only [handle, peerHandler, StateT.run_bind, ran]
        rfl
      rw [outcome_of_ok handled]
      exact .running (.requested found effect same replied)
    · push Not at valid
      obtain ⟨name, requested, invalid⟩ := valid
      rw [outcome_unconvertible requested invalid]
      exact .nullKey requested invalid
  | other => exact .running (.ignored trivial)

private theorem outcome_timer (wf : WellFormed env broker) {source : Object} (enabled : source ∈ broker.sources) :
    OutcomeEffect env broker (.timer source) (outcome env broker (.timer source)) := by
  obtain ⟨handler, armed⟩ := AList.exists_lookup enabled
  cases handler with
  | removeNetwork network =>
    obtain ⟨key, value, rest, found, live, timer, split, ran⟩ :=
      run_timerHandler_network wf.toCoherent armed
    have handled : (handle env (.timer source)).run broker =
        .ok (none, broker.discard key network source rest) := ran
    rw [outcome_of_ok handled]
    exact .running (.removed found live timer split)
  | shutdown =>
    obtain ⟨final, ran, registry, heap, objects⟩ :=
      run_shutdownNetworks wf.toCoherent (broker.sources.erase source)
    have handled : (handle env (.timer source)).run broker = .ok (some .idleTimeout, final) := by
      simp only [handle, timerHandler, StateT.run_bind, StateT.run_get, pure_eq_ok, ok_bind, armed,
        StateT.run_modify, ran]
      rfl
    rw [outcome_of_ok handled]
    exact .shutdown ((wf.broker_timer source).mp armed) registry heap objects

private theorem outcome_signal (wf : WellFormed env broker) :
    OutcomeEffect env broker .signal (outcome env broker .signal) := by
  by_cases busy : broker.connectedPeers > 0
  · have ignored : (handle env .signal).run broker = .ok (none, broker) := by
      simp only [handle, signalHandler, StateT.run_bind, StateT.run_get, pure_eq_ok, ok_bind, if_pos busy]
      rfl
    rw [outcome_of_ok ignored]
    exact .running (.ignored busy)
  · obtain ⟨final, ran, registry, heap, objects⟩ := run_shutdownNetworks wf.toCoherent broker.sources
    have handled : (handle env .signal).run broker = .ok (some .signal, final) := by
      simp only [handle, signalHandler, StateT.run_bind, StateT.run_get, pure_eq_ok, ok_bind, if_neg busy, ran]
      rfl
    rw [outcome_of_ok handled]
    exact .shutdown (not_lt.mp busy) registry heap objects

/-- Every enabled event has one of the listed outcomes. -/
theorem outcome_effect (wf : WellFormed env broker) (enabled : Enabled broker event) :
    OutcomeEffect env broker event (outcome env broker event) := by
  cases event with
  | listener event => exact outcome_listener wf enabled
  | peer peer event calls => exact outcome_peer wf enabled
  | timer source => exact outcome_timer wf enabled
  | signal => exact outcome_signal wf

/-- A request whose name has a key always completes. -/
theorem request_outcome (wf : WellFormed env broker) {message : Message} {calls : Calls}
    (enabled : Enabled broker (.peer peer (.dictionary message) calls))
    (valid : ∀ name, message.acquires = some name → name.ValidUtf8) :
    ∃ next ctx result core, outcome env broker (.peer peer (.dictionary message) calls) = .running next ∧
      broker.peers.lookup peer = some ctx ∧ RequestEffect env broker peer ctx message calls result core ∧
      core.Matches next ∧ next.sent = broker.sent ++ message.replies peer (replyBody result) := by
  have effect := outcome_effect wf enabled
  generalize outcome env broker (.peer peer (.dictionary message) calls) = after at effect ⊢
  cases effect with
  | running stepped =>
    cases stepped with
    | ignored harmless => contradiction
    | requested found effect same replied => exact ⟨_, _, _, _, rfl, found, effect, same, replied⟩
  | shutdown stops => cases stops
  | nullKey requested invalid => exact absurd (valid _ requested) invalid

theorem step_effect (wf : WellFormed env broker) (stepped : step env broker event = some next) :
    StepEffect env broker event next := by
  obtain ⟨enabled, running⟩ := step_eq_some.mp stepped
  have effect := outcome_effect wf enabled
  rw [running] at effect
  cases effect with
  | running effect => exact effect

namespace WellFormed

theorem of_matches (wf : WellFormed env broker) (same : broker.Matches next) : WellFormed env next where
  toCoherent := wf.toCoherent.of_matches same
  timed := same.timed wf.timed
  configured := same.heap ▸ wf.configured
  connected := by rw [same.connectedPeers, same.peers]; exact wf.connected
  balanced := by
    rw [same.transactionBegins, same.transactionEnds, same.connectedPeers]
    exact wf.balanced
  scheduled := by
    rw [same.idleTimer, same.connectedPeers, same.transactionBegins]
    exact wf.scheduled

/-- A request changes neither the number of peers nor the broker timer. -/
theorem request {ctx : BrokerContext} {message : Message} {calls : Calls} {result : Option Object × Int32}
    {core : Broker Key} (wf : WellFormed env broker) (found : broker.peers.lookup peer = some ctx)
    (effect : RequestEffect env broker peer ctx message calls result core) : WellFormed env core := by
  have coherent := effect.coherent wf.toCoherent found
  have timed := effect.timed wf.toCoherent wf.timed
  have configured : ∀ network value name, core.heap.lookup network = some value → value.name = some name →
      env.Configured name := by
    intro network value name lookup named
    rcases effect.name_origin lookup named with ⟨before, live, same⟩ | ⟨_, _, _, config, found, _⟩
    · exact wf.configured network before name live same
    · exact env.configured_of_find found
  have length (new : BrokerContext) : (broker.peers.insert peer new).entries.length =
      broker.peers.entries.length := AList.length_insert_of_lookup found new
  cases effect with
  | malformed rejected => exact wf
  | acquire requested created ran effect =>
    cases effect with
    | owned | full | notFound | createFailure => exact wf
    | shared | created =>
      exact ⟨coherent, timed, configured, wf.connected.trans (by rw [← length]; rfl), wf.balanced, wf.scheduled⟩

/-- The first peer begins the transaction and cancels the broker timer. -/
theorem accept (wf : WellFormed env broker) (absent : peer ∉ broker.peers) :
    WellFormed env (broker.welcome peer) := by
  have length : (broker.peers.insert peer {}).entries.length = broker.peers.entries.length + 1 :=
    AList.length_insert_of_notMem absent {}
  have connected := wf.connected
  have balanced := wf.balanced
  have scheduled := wf.scheduled
  have arrived := wf.toCoherent.arrive absent
  by_cases first : broker.connectedPeers + 1 = 1
  · simp only [Broker.welcome, if_pos first]
    have begun : Coherent env { broker with
        peers := broker.peers.insert peer {}
        connectedPeers := broker.connectedPeers + 1
        transactionBegins := broker.transactionBegins + 1 } :=
      arrived.congr rfl rfl rfl rfl rfl rfl le_rfl
    refine ⟨begun.unschedule, wf.timed, wf.configured, ?_, ?_, ?_⟩
    · simp only [Broker.unschedule, length]
      omega
    · rw [if_pos (by omega)] at balanced
      change broker.transactionBegins + 1 =
        broker.transactionEnds + if broker.connectedPeers + 1 = 0 then 0 else 1
      rw [if_neg (by omega)]
      omega
    · simp only [Broker.unschedule]
      simp
      omega
  · simp only [Broker.welcome, if_neg first]
    refine ⟨arrived.congr rfl rfl rfl rfl rfl rfl le_rfl, wf.timed, wf.configured, ?_, ?_, ?_⟩
    · simp only [length]
      omega
    · rw [if_neg (by omega)] at balanced
      simp only
      rw [if_neg (by omega)]
      exact balanced
    · simp only
      rw [scheduled]
      omega

/-- The last peer ends the transaction and arms the broker timer. -/
theorem disconnect {ctx : BrokerContext} {middle : Broker Key} (wf : WellFormed env broker)
    (found : broker.peers.lookup peer = some ctx) (coherent : Coherent env middle) (timed : middle.Timed)
    (emptied : middle.peers.lookup peer = some {})
    (others : middle.peers.erase peer = broker.peers.erase peer)
    (released : { broker with connectedPeers := broker.connectedPeers - 1 }.Released middle ctx.networks) :
    WellFormed env (middle.farewell peer) := by
  have length := AList.length_erase_of_lookup found
  have connected := wf.connected
  have balanced := wf.balanced
  have unarmed : middle.idleTimer = none :=
    released.idleTimer.trans (wf.unarmed (AList.mem_of_lookup found))
  have count : middle.connectedPeers = broker.connectedPeers - 1 := released.connectedPeers
  have begins : middle.transactionBegins = broker.transactionBegins := released.transactionBegins
  have ends : middle.transactionEnds = broker.transactionEnds := released.transactionEnds
  have configured : ∀ network value name, middle.heap.lookup network = some value → value.name = some name →
      env.Configured name := by
    intro network value name lookup named
    obtain ⟨before, live, same⟩ := released.name_origin (wf.held_live peer ctx found) lookup
    exact wf.configured network before name live (same.trans named)
  have left := coherent.leave emptied
  by_cases last : middle.connectedPeers = 0
  · simp only [Broker.farewell, if_pos last]
    have ended : Coherent env { middle with
        peers := middle.peers.erase peer, transactionEnds := middle.transactionEnds + 1 } :=
      left.congr rfl rfl rfl rfl rfl rfl le_rfl
    refine ⟨ended.schedule unarmed, timed, configured, ?_, ?_, ?_⟩
    · simp only [Broker.schedule, others]
      omega
    · rw [if_neg (by omega)] at balanced
      simp only [Broker.schedule, begins, ends]
      rw [if_pos last]
      exact balanced
    · rw [if_neg (by omega)] at balanced
      simp only [Broker.schedule, begins, Option.isSome_some, true_iff]
      omega
  · simp only [Broker.farewell, if_neg last]
    refine ⟨left, timed, configured, ?_, ?_, ?_⟩
    · simp only [others, count]
      omega
    · rw [if_neg (by omega)] at balanced
      simp only [begins, ends]
      rw [if_neg last]
      exact balanced
    · simp only [unarmed, Option.isSome_none, Bool.false_eq_true, false_iff]
      omega

/-- A fired network timer takes an unused network away. -/
theorem discard {source : Object} {network : Address} {key : Key} {value : Network} {rest : Multiset Object}
    (wf : WellFormed env broker) (found : broker.registered.lookup key = some network)
    (live : broker.heap.lookup network = some value) (armed : value.idleTimer = some source)
    (split : broker.objects = value.references + rest) :
    WellFormed env (broker.discard key network source rest) := by
  have unowned : broker.owners network = 0 := by
    have none : value.peers = 0 := (wf.timed network value live).mp (by simp [armed])
    have counted := wf.counted network value live
    omega
  have remains : ∀ other stored, (broker.heap.erase network).lookup other = some stored →
      broker.heap.lookup other = some stored := by
    intro other stored lookup
    rw [AList.lookup_erase_eq] at lookup
    split at lookup
    · contradiction
    · exact lookup
  exact {
    toCoherent := (wf.toCoherent.remove found live unowned armed split).congr rfl rfl rfl rfl rfl rfl
      (Nat.le_succ _)
    timed := fun other stored lookup => wf.timed other stored (remains other stored lookup)
    configured := fun other stored name lookup => wf.configured other stored name (remains other stored lookup)
    connected := wf.connected
    balanced := wf.balanced
    scheduled := wf.scheduled }

/-- The broker starts without peers, networks and references. -/
theorem initial (env : Environment Key) : WellFormed env ({} : Broker Key) where
  held_nodup := by simp
  held_bounded := by simp
  held_live := by simp
  registered_named := by simp [Broker.registered]
  live_registered := by simp
  complete := by simp
  counted := by simp
  network_timer := by simp
  broker_timer := by simp
  source_kind := by simp
  ledger := rfl
  distinct := Multiset.nodup_zero
  fresh := by simp
  timed := by simp [Broker.Timed]
  configured := by simp
  connected := rfl
  balanced := rfl
  scheduled := by simp

theorem effect (wf : WellFormed env broker) (effect : StepEffect env broker event next) : WellFormed env next := by
  cases effect with
  | ignored harmless => exact wf
  | accepted absent => exact wf.accept absent
  | requested found effect same replied => exact (wf.request found effect).of_matches same
  | disconnected found coherent timed emptied others released =>
    exact wf.disconnect found coherent timed emptied others released
  | removed found live armed split => exact wf.discard found live armed split

theorem step (wf : WellFormed env broker) (stepped : VmnetBroker.step env broker event = some next) :
    WellFormed env next :=
  wf.effect (step_effect wf stepped)

/-- A process ends early only at the unchecked key or at the assertion on a new dispatch source. -/
theorem outcome_ne (wf : WellFormed env broker) {fault : Fault} (nullKey : fault ≠ .nullKey)
    (sourceCreateFailed : fault ≠ .sourceCreateFailed) (enabled : Enabled broker event) :
    outcome env broker event ≠ .crashed fault := by
  intro crashed
  have effect := outcome_effect wf enabled
  rw [crashed] at effect
  cases effect with
  | nullKey => exact nullKey rfl
  | sourceCreateFailed => exact sourceCreateFailed rfl

/-- The invariant survives any run. -/
theorem run (wf : WellFormed env broker) {events : List Event}
    (ran : Machine.run (VmnetBroker.step env) broker events = some next) : WellFormed env next := by
  refine Machine.run_invariant (fun _ => True) (WellFormed env) ?_ wf (fun _ _ => trivial) ran
  intro state event after invariant _ stepped
  exact invariant.step stepped

end WellFormed

theorem Reachable.wellFormed (reachable : Reachable env broker) : WellFormed env broker := by
  obtain ⟨events, ran⟩ := reachable
  exact (WellFormed.initial env).run ran

end VmnetBroker
