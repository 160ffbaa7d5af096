import VmnetBroker.Proofs.Timers
import VmnetBroker.Soundness.Retention

/-! # How long an unused network is kept

The idle timers exist to keep the reservation of a network in case somebody wants it soon. From below: as
long as somebody held a network within the last `idle_timeout_sec` seconds it is still registered, whoever
asks for it gets the same serialization, and the broker does not exit for being idle. From above: when the
system fires every timer within its leeway, a network without peers was left by its last peer at most the
timeout and the leeway ago, and so was a broker without peers.
-/

namespace VmnetBroker

variable {Key : Type} [DecidableEq Key] {env : Environment Key}

/-- The network is registered under this key with this serialization. -/
def Broker.Reserves (broker : Broker Key) (key : Key) (network : Address) (serialization : Object) : Prop :=
  broker.registered.lookup key = some network ∧
    ∃ value, broker.heap.lookup network = some value ∧ value.serialization = some serialization

/-- The step disconnects the only peer. -/
def Empties (broker : Broker Key) (event : Event) (next : Broker Key) : Prop :=
  (∃ peer calls, event = .peer peer .connectionInvalid calls) ∧ broker.connectedPeers = 1 ∧ next.connectedPeers = 0

/-- Nobody is connected before or after the step. -/
def StaysEmpty (broker next : Broker Key) : Prop := broker.connectedPeers = 0 ∧ next.connectedPeers = 0

section Steps

variable {broker next : Broker Key} {event : Event} {peer : Connection} {key : Key} {network : Address}
  {serialization : Object} {source : Object} {handler : Handler}

theorem Broker.Holds.reserves (holds : broker.Holds peer key network serialization) :
    broker.Reserves key network serialization := ⟨holds.1, holds.2.1⟩

/-- Only its own timer takes a network away. -/
theorem Broker.Reserves.effect (reserves : broker.Reserves key network serialization) (wf : WellFormed env broker)
    (effect : StepEffect env broker event next) :
    next.Reserves key network serialization ∨
      ∃ source, event = .timer source ∧ Waits (.removeNetwork network) broker source := by
  obtain ⟨registered, value, live, stored⟩ := reserves
  rcases effect.keeps wf registered with ⟨still, keeps⟩ | ⟨source, held, fired, lookup, armed⟩
  · obtain ⟨after, afterLive, _, afterStored⟩ := keeps value live
    exact Or.inl ⟨still, after, afterLive, afterStored.trans stored⟩
  · exact Or.inr ⟨source, fired, (wf.network_timer source network).mpr ⟨held, lookup, armed⟩⟩

/-- A reserved network is what its name is granted. -/
theorem Broker.Reserves.granted (reserves : broker.Reserves key network serialization) (wf : WellFormed env broker)
    (stepped : step env broker event = some next) {name : CString} {other : Connection} {again : Object}
    (created : env.createWithCString name = some key)
    (grant : granted env broker event = some (other, name, again)) : again = serialization := by
  obtain ⟨found, bound, keyed, holds⟩ := Broker.Holds.of_granted wf stepped grant
  obtain rfl := Option.some.inj (created.symm.trans keyed)
  rcases reserves.effect wf (step_effect wf stepped) with still | ⟨source, rfl, _⟩
  · obtain ⟨registered, value, live, stored⟩ := still
    exact (holds.serialization_eq registered live stored).symm
  · contradiction

/-- The timer of a network that is held does not run. -/
theorem Broker.Holds.unwaited (holds : broker.Holds peer key network serialization) (wf : WellFormed env broker)
    (source : Object) : ¬ Waits (.removeNetwork network) broker source := by
  intro waits
  obtain ⟨_, _, ctx, found, member⟩ := holds
  obtain ⟨value, live, armed⟩ := (wf.network_timer source network).mp waits
  have idle : value.peers = 0 := (wf.timed network value live).mp (by simp [armed])
  have counted := wf.counted network value live
  have positive := owners_pos found member
  omega

/-- The broker timer does not run while a peer is connected. -/
theorem WellFormed.unwaited (wf : WellFormed env broker) (connected : peer ∈ broker.peers) (source : Object) :
    ¬ Waits .shutdown broker source := by
  intro waits
  have armed := (wf.broker_timer source).mp waits
  rw [wf.unarmed connected] at armed
  contradiction

/-- A request leaves the number of peers and the broker timer alone. -/
theorem RequestEffect.lifecycle {ctx : BrokerContext} {message : Message} {calls : Calls}
    {result : Option Object × Int32} {core : Broker Key}
    (effect : RequestEffect env broker peer ctx message calls result core) :
    core.connectedPeers = broker.connectedPeers ∧ core.idleTimer = broker.idleTimer := by
  cases effect with
  | malformed rejected => exact ⟨rfl, rfl⟩
  | acquire requested created ran effect => cases effect <;> exact ⟨rfl, rfl⟩

/-- The broker timer is armed when the only peer leaves, and nobody comes while it runs. -/
theorem StepEffect.shutdown_origin (effect : StepEffect env broker event next) (wf : WellFormed env broker)
    (nextWf : WellFormed env next) (waits : Waits .shutdown next source) :
    ¬ Waits .shutdown broker source ∧ Empties broker event next ∨
      Waits .shutdown broker source ∧ StaysEmpty broker next := by
  have armed := (nextWf.broker_timer source).mp waits
  have empty := (nextWf.scheduled.mp (by simp [armed])).1
  have old (same : next.idleTimer = broker.idleTimer) : Waits .shutdown broker source ∧ StaysEmpty broker next := by
    rw [same] at armed
    exact ⟨(wf.broker_timer source).mpr armed, (wf.scheduled.mp (by simp [armed])).1, empty⟩
  cases effect with
  | ignored harmless => exact Or.inr (old rfl)
  | accepted absent =>
    rw [Broker.welcome_connectedPeers, wf.connected] at empty
    omega
  | requested found effect same replied => exact Or.inr (old (same.idleTimer.trans effect.lifecycle.2))
  | @disconnected peer ctx calls middle found coherent timed emptied others released =>
    refine Or.inl ⟨wf.unwaited (AList.mem_of_lookup found) source, ⟨peer, calls, rfl⟩, ?_, empty⟩
    have count : middle.connectedPeers = broker.connectedPeers - 1 := released.connectedPeers
    rw [Broker.farewell_connectedPeers] at empty
    omega
  | removed => exact Or.inr (old rfl)

/-- Only the broker timer makes the broker exit for being idle. -/
theorem WellFormed.idle_exit (wf : WellFormed env broker) (enabled : Enabled broker event) {final : Broker Key}
    (exited : outcome env broker event = .exited .idleTimeout final) :
    ∃ source, event = .timer source ∧ broker.idleTimer = some source := by
  have effect := outcome_effect wf enabled
  rw [exited] at effect
  cases effect with
  | shutdown stops =>
    cases event with
    | timer source => exact ⟨source, rfl, stops⟩
    | listener | peer | signal => contradiction

end Steps

section Runs

variable {clocked later : ClockedBroker Key} {before events : List TimedEvent} {time : ℕ}

/-- One peer acquires a network, after one second. -/
def firstPeer : List TimedEvent :=
  [(0, .listener (.connection 1)), (1 * nsecPerSec, acquireShared)]

/-- It leaves, and the next peer comes when almost two minutes have passed. -/
def secondPeer : List TimedEvent :=
  [(2 * nsecPerSec, .peer 1 .connectionInvalid {}), (120 * nsecPerSec, .listener (.connection 2))]

/-- With timers that fire within their leeway, what is unused was used at most the timeout and the leeway ago. -/
theorem unused_leaves_in_time (ran : timedRun env time events = some clocked)
    (punctual : Machine.Along (timedStep env) (Punctual env) (launchedAt time) events) :
    (∀ network value, clocked.state.heap.lookup network = some value → value.peers = 0 →
      ∃ source, Machine.Since (timedStep env)
        (fun middle label next => Arms network source middle.state label.2 next.state ∧
          clocked.now ≤ label.1 + idleTimeout + timerLeeway)
        (fun middle label next => Spares env network middle.state label.2 next.state)
        (launchedAt time) events clocked) ∧
    (clocked.state.connectedPeers = 0 → 0 < clocked.state.transactionBegins →
      Machine.Since (timedStep env)
        (fun middle label next => Empties middle.state label.2 next.state ∧
          clocked.now ≤ label.1 + idleTimeout + timerLeeway)
        (fun middle _ next => StaysEmpty middle.state next.state) (launchedAt time) events clocked) := by
  have initial : WellFormed env (launchedAt time : ClockedBroker Key).state := .initial env
  have wf : WellFormed env clocked.state := wellFormed_of_timedRun initial ran
  have unwaited (handler : Handler) (source : Object) :
      ¬ Waits handler (launchedAt time : ClockedBroker Key).state source := by simp [Waits, launchedAt]
  have prompt {handler : Handler} {source : Object} (waits : Waits handler clocked.state source) :
      clocked.now ≤ clocked.due source + timerLeeway := by
    apply Machine.Timers.run_punctual _ punctual ran (mem_brokerTimers_armed.mpr (AList.mem_of_lookup waits))
    intro timer armed
    exact absurd (mem_brokerTimers_armed.mp armed) (by simp [launchedAt])
  constructor
  · intro network value live unused
    have running : value.idleTimer.isSome = true := (wf.timed network value live).mpr unused
    obtain ⟨source, armed⟩ := Option.isSome_iff_exists.mp running
    have waits : Waits (.removeNetwork network) clocked.state source :=
      (wf.network_timer source network).mpr ⟨value, live, armed⟩
    have soon := prompt waits
    have since := Machine.Timers.run_waiting_since (purpose_waits env _) initial (unwaited _ source) ran waits
    have origin {tape : List TimedEvent} {middle next : ClockedBroker Key} {label : TimedEvent}
        (passed : Machine.run (timedStep env) (launchedAt time) tape = some middle)
        (ticked : timedStep env middle label = some next) (waiting : Waits (.removeNetwork network) next.state source) :
        Arms network source middle.state label.2 next.state ∨
          Waits (.removeNetwork network) middle.state source ∧
            Spares env network middle.state label.2 next.state := by
      have middleWf := wellFormed_of_timedRun initial passed
      have stepped := Machine.Timers.tick_step ticked
      obtain ⟨after, lookup, timer⟩ := ((middleWf.step stepped).network_timer source network).mp waiting
      rcases (step_effect middleWf stepped).timer_origin middleWf lookup timer with arms | ⟨same, spares⟩
      · exact Or.inl arms
      · exact Or.inr ⟨(middleWf.network_timer source network).mpr ⟨after, same, timer⟩, spares⟩
    refine ⟨source, (since.mono ?_ ?_).2⟩
    · rintro tape middle label next passed ticked ⟨fresh, waiting, due⟩
      refine ⟨(origin passed ticked waiting).resolve_right fun old => fresh old.1, ?_⟩
      rwa [due] at soon
    · rintro tape middle label next passed ticked ⟨running, waiting⟩
      rcases origin passed ticked waiting with ⟨_, before, _, lookup, _, unarmed, _⟩ | ⟨_, spares⟩
      · have middleWf := wellFormed_of_timedRun initial passed
        obtain ⟨stored, live, timer⟩ := (middleWf.network_timer source network).mp running
        obtain rfl := Option.some.inj (lookup.symm.trans live)
        rw [unarmed] at timer
        contradiction
      · exact spares
  · intro empty began
    have running := wf.scheduled.mpr ⟨empty, began⟩
    obtain ⟨source, armed⟩ := Option.isSome_iff_exists.mp running
    have waits : Waits .shutdown clocked.state source := (wf.broker_timer source).mpr armed
    have soon := prompt waits
    have since := Machine.Timers.run_waiting_since (purpose_waits env _) initial (unwaited _ source) ran waits
    have origin {tape : List TimedEvent} {middle next : ClockedBroker Key} {label : TimedEvent}
        (passed : Machine.run (timedStep env) (launchedAt time) tape = some middle)
        (ticked : timedStep env middle label = some next) (waiting : Waits .shutdown next.state source) :
        ¬ Waits .shutdown middle.state source ∧ Empties middle.state label.2 next.state ∨
          Waits .shutdown middle.state source ∧ StaysEmpty middle.state next.state := by
      have middleWf := wellFormed_of_timedRun initial passed
      have stepped := Machine.Timers.tick_step ticked
      exact (step_effect middleWf stepped).shutdown_origin middleWf (middleWf.step stepped) waiting
    refine (since.mono ?_ ?_).2
    · rintro tape middle label next passed ticked ⟨fresh, waiting, due⟩
      rcases origin passed ticked waiting with ⟨_, empties⟩ | ⟨old, _⟩
      · exact ⟨empties, by rwa [due] at soon⟩
      · exact absurd old fresh
    · rintro tape middle label next passed ticked ⟨running, waiting⟩
      rcases origin passed ticked waiting with ⟨fresh, _⟩ | ⟨_, stays⟩
      · exact absurd running fresh
      · exact stays

/-- The peer leaves after two seconds, and nothing but an ignored event of the listener has happened after two minutes. -/
def unusedForTwoMinutes : List TimedEvent :=
  firstPeer ++ [(2 * nsecPerSec, .peer 1 .connectionInvalid {}), (122 * nsecPerSec, .listener .other)]

theorem unused_leaves_in_time_twoMinutes : ∃ clocked, timedRun builtinEnvironment 0 unusedForTwoMinutes = some clocked ∧
    clocked.now = 122 * nsecPerSec ∧
    Machine.Since (timedStep builtinEnvironment)
      (fun middle label next => Empties middle.state label.2 next.state ∧
        clocked.now ≤ label.1 + idleTimeout + timerLeeway)
      (fun middle _ next => StaysEmpty middle.state next.state) (launchedAt 0) unusedForTwoMinutes clocked := by
  have checked : (timedRun builtinEnvironment 0 unusedForTwoMinutes).map (fun clocked =>
      (clocked.now, clocked.state.connectedPeers, clocked.state.transactionBegins)) =
      some (122 * nsecPerSec, 0, 1) := by decide +kernel
  obtain ⟨clocked, ran, observed⟩ := Option.map_eq_some_iff.mp checked
  obtain ⟨now, empty, began⟩ : clocked.now = 122 * nsecPerSec ∧ clocked.state.connectedPeers = 0 ∧
      clocked.state.transactionBegins = 1 := by simpa using observed
  have punctual : Machine.Along (timedStep builtinEnvironment) (Punctual builtinEnvironment) (launchedAt 0)
      unusedForTwoMinutes := by decide +kernel
  exact ⟨clocked, ran, now, (unused_leaves_in_time ran punctual).2 empty (by omega)⟩

end Runs

end VmnetBroker
