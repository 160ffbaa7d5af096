import VmnetBroker.Proofs.Endings
import VmnetBroker.Soundness.Requests

/-! # How the process ends

The broker ends in one of five ways, and each has an exact cause: it exits when its idle timer fires, when it is
told to stop while nobody is connected, and when the listener fails; it is aborted by the name of a request that
has no key, and by a disconnect that needs a dispatch source which cannot be created. Left alone by its clients it
winds down: every disconnect and every timer brings the end closer by one step, and there is always a next step.
-/

namespace VmnetBroker

variable {Key : Type} [DecidableEq Key] {env : Environment Key} {broker next : Broker Key} {event : Event}
  {peer : Connection} {events : List Event}

/-- Nobody else holds this network. -/
def Broker.HoldsAlone (broker : Broker Key) (peer : Connection) (network : Address) : Prop :=
  (∃ ctx, broker.peers.lookup peer = some ctx ∧ network ∈ ctx.networks) ∧
    ∀ other ctx, broker.peers.lookup other = some ctx → network ∈ ctx.networks → other = peer

/-- The causes of an exit. -/
def Event.Exits (broker : Broker Key) : Event → Exit → Prop
  | .timer source, .idleTimeout => broker.idleTimer = some source
  | .signal, .signal => broker.connectedPeers = 0
  | .listener .error, .listenerFailed => True
  | _, _ => False

/-- The causes of an abort. -/
def Event.Crashes (broker : Broker Key) : Event → Fault → Prop
  | .peer _ (.dictionary message) _, .nullKey => message.Unconvertible
  | .peer peer .connectionInvalid calls, .sourceCreateFailed => calls.dispatchSourceCreate = false ∧
      (broker.connectedPeers = 1 ∨ ∃ network, broker.HoldsAlone peer network)
  | _, _ => False

/-- A disconnect vacates the networks that the peer holds alone. -/
theorem Coherent.vacates_iff (coherent : Coherent env broker) {ctx : BrokerContext}
    (found : broker.peers.lookup peer = some ctx) :
    broker.Vacates ctx.networks ↔ ∃ network, broker.HoldsAlone peer network := by
  constructor
  · rintro ⟨network, member, value, live, single⟩
    have counted := coherent.counted network value live
    exact ⟨network, ⟨ctx, found, member⟩, (owners_eq_one_iff found member).mp (by omega)⟩
  · rintro ⟨network, ⟨again, lookup, member⟩, alone⟩
    obtain rfl := Option.some.inj (found.symm.trans lookup)
    obtain ⟨value, live⟩ := AList.exists_lookup (coherent.held_live peer ctx found network member)
    have counted := coherent.counted network value live
    have single := (owners_eq_one_iff found member).mpr alone
    exact ⟨network, member, value, live, by omega⟩

/-- What makes the process exit is listed. -/
theorem WellFormed.exits (wf : WellFormed env broker) (enabled : Enabled broker event) {exit : Exit}
    {final : Broker Key} (exited : outcome env broker event = .exited exit final) : event.Exits broker exit := by
  have effect := outcome_effect wf enabled
  rw [exited] at effect
  cases effect with
  | listenerFailed => trivial
  | shutdown stops =>
    have unconnected := stops.connectedPeers wf
    unfold Event.Stops at stops
    split at stops
    · exact unconnected
    · exact stops
    · contradiction

/-- What is listed makes the process exit. -/
theorem WellFormed.exited_of_exits (wf : WellFormed env broker) (enabled : Enabled broker event) {exit : Exit}
    (exits : event.Exits broker exit) : ∃ final, outcome env broker event = .exited exit final := by
  have effect := outcome_effect wf enabled
  unfold Event.Exits at exits
  split at exits
  · next source =>
    have armed := (wf.broker_timer source).mpr exits
    generalize outcome env broker (.timer source) = after at effect ⊢
    cases effect with
    | @shutdown _ exit final stops =>
      cases exit with
      | idleTimeout => exact ⟨final, rfl⟩
      | signal | listenerFailed => contradiction
    | running stepped =>
      cases stepped with
      | ignored harmless => contradiction
      | @removed _ network _ value _ _ live timer _ =>
        cases armed.symm.trans ((wf.network_timer source network).mpr ⟨value, live, timer⟩)
  · generalize outcome env broker .signal = after at effect ⊢
    cases effect with
    | @shutdown _ exit final stops =>
      cases exit with
      | signal => exact ⟨final, rfl⟩
      | idleTimeout | listenerFailed => contradiction
    | running stepped =>
      cases stepped with
      | ignored harmless =>
        change 0 < broker.connectedPeers at harmless
        omega
  · exact ⟨broker, rfl⟩
  · contradiction

/-- What makes the process abort is listed. -/
theorem WellFormed.crashes (wf : WellFormed env broker) (enabled : Enabled broker event) {fault : Fault}
    (crashed : outcome env broker event = .crashed fault) : event.Crashes broker fault := by
  have effect := outcome_effect wf enabled
  rw [crashed] at effect
  cases effect with
  | nullKey requested invalid => exact Message.unconvertible_iff.mpr ⟨_, requested, invalid⟩
  | sourceCreateFailed uncreated =>
    obtain ⟨ctx, found⟩ := AList.exists_lookup enabled.1
    refine ⟨uncreated, ?_⟩
    rwa [← wf.vacates_iff found, ← outcome_connectionInvalid_uncreated uncreated wf found]

/-- What is listed makes the process abort. -/
theorem WellFormed.crashed_of_crashes (wf : WellFormed env broker) (enabled : Enabled broker event) {fault : Fault}
    (crashes : event.Crashes broker fault) : outcome env broker event = .crashed fault := by
  unfold Event.Crashes at crashes
  split at crashes
  · obtain ⟨name, requested, invalid⟩ := Message.unconvertible_iff.mp crashes
    exact outcome_unconvertible requested invalid _
  · obtain ⟨uncreated, cause⟩ := crashes
    obtain ⟨ctx, found⟩ := AList.exists_lookup enabled.1
    rwa [outcome_connectionInvalid_uncreated uncreated wf found, wf.vacates_iff found]
  · contradiction

/-- Whatever is not listed runs on. -/
theorem WellFormed.runs_on (wf : WellFormed env broker) (enabled : Enabled broker event)
    (stays : ∀ exit, ¬ event.Exits broker exit) (survives : ∀ fault, ¬ event.Crashes broker fault) :
    ∃ next, VmnetBroker.step env broker event = some next := by
  cases result : outcome env broker event with
  | running next => exact ⟨next, step_eq_some.mpr ⟨enabled, result⟩⟩
  | exited exit final => exact absurd (wf.exits enabled result) (stays exit)
  | crashed fault => exact absurd (wf.crashes enabled result) (survives fault)

/-- A disconnect for which dispatch sources can be created runs on. -/
theorem WellFormed.disconnect_runs_on (wf : WellFormed env broker) (connected : peer ∈ broker.peers) :
    ∃ next, VmnetBroker.step env broker (.peer peer .connectionInvalid {}) = some next := by
  have enabled : Enabled broker (.peer peer .connectionInvalid {}) := ⟨connected, by simp⟩
  refine wf.runs_on enabled nofun ?_
  intro fault crashes
  cases fault with
  | sourceCreateFailed => exact absurd crashes.1 (by decide)
  | _ => contradiction

/-- The timer of a network runs on. -/
theorem WellFormed.timer_runs_on (wf : WellFormed env broker) {source : Object} {network : Address}
    (armed : broker.sources.lookup source = some (.removeNetwork network)) :
    ∃ next, VmnetBroker.step env broker (.timer source) = some next := by
  have enabled : Enabled broker (.timer source) := AList.mem_of_lookup armed
  refine wf.runs_on enabled ?_ nofun
  intro exit exits
  cases exit with
  | idleTimeout => cases armed.symm.trans ((wf.broker_timer source).mpr exits)
  | signal | listenerFailed => contradiction

/-- The process ends exactly as listed: no other fault and no other exit is possible. -/
theorem process_ends_iff (reachable : Reachable env broker) (enabled : Enabled broker event) :
    (∀ exit, (∃ final, outcome env broker event = .exited exit final) ↔ event.Exits broker exit) ∧
    ∀ fault, outcome env broker event = .crashed fault ↔ event.Crashes broker fault := by
  have wf := reachable.wellFormed
  constructor
  · intro exit
    constructor
    · rintro ⟨final, exited⟩
      exact wf.exits enabled exited
    · exact wf.exited_of_exits enabled
  · intro fault
    exact ⟨wf.crashes enabled, wf.crashed_of_crashes enabled⟩

/-- The only peer that holds a network leaves while no dispatch source can be created. -/
theorem process_ends_iff_lastOwner : ∃ broker, run builtinEnvironment sharedInUse = some broker ∧
    outcome builtinEnvironment broker (.peer 1 .connectionInvalid { dispatchSourceCreate := false }) =
      .crashed .sourceCreateFailed := by
  have checked : (run builtinEnvironment sharedInUse).map (fun broker => decide (Enabled broker
      (.peer 1 .connectionInvalid { dispatchSourceCreate := false }) ∧
      broker.peers.lookup 1 = some { networks := [16] } ∧ broker.peers.keys = [2, 1] ∧
      broker.peers.lookup 2 = some {})) = some true := by
    decide +kernel
  obtain ⟨broker, ran, holds⟩ := Option.map_eq_some_iff.mp checked
  obtain ⟨enabled, first, keys, second⟩ := of_decide_eq_true holds
  have alone : broker.HoldsAlone 1 16 := by
    refine ⟨⟨_, first, List.mem_singleton_self _⟩, ?_⟩
    intro other ctx found member
    have connected : other ∈ broker.peers.keys := AList.mem_keys.mp (AList.mem_of_lookup found)
    rw [keys] at connected
    simp only [List.mem_cons, List.not_mem_nil, or_false] at connected
    rcases connected with rfl | rfl
    · rw [second] at found
      cases found
      exact absurd member List.not_mem_nil
    · rfl
  exact ⟨broker, ran, ((process_ends_iff ⟨sharedInUse, ran⟩ enabled).2 .sourceCreateFailed).mpr
    ⟨rfl, Or.inr ⟨16, alone⟩⟩⟩

section Winding

/-- What still happens when no client asks for anything: the connections end and the timers fire. A dispatch source
that a disconnect needs for its timer is assumed to be created. -/
def Event.Winds : Event → Prop
  | .peer _ .connectionInvalid calls => calls.dispatchSourceCreate = true
  | .timer _ => True
  | _ => False

/-- The connections and the reservations that are left. -/
def Broker.remaining (broker : Broker Key) : ℕ := broker.peers.entries.length + broker.registered.entries.length

/-- Winding down takes one connection or one reservation away in every step. -/
theorem StepEffect.remaining (effect : StepEffect env broker event next) (winds : event.Winds) :
    next.remaining + 1 = broker.remaining := by
  cases effect with
  | ignored harmless =>
    unfold Event.Ignored at harmless
    split at harmless <;> contradiction
  | accepted | requested => contradiction
  | @disconnected _ _ _ middle found coherent timed emptied others released =>
    have length := AList.length_erase_of_lookup found
    have registered : middle.registered = broker.registered := congrArg (Option.getD · ∅) released.registry
    simp only [Broker.remaining, Broker.farewell_peers, Broker.farewell_registered, others, registered]
    omega
  | @removed source network key _ rest found live armed split =>
    have length := AList.length_erase_of_lookup found
    have registered : (broker.discard key network source rest).registered = broker.registered.erase key := rfl
    simp only [Broker.remaining, registered]
    change broker.peers.entries.length + _ + 1 = _
    omega

/-- While something is left, something can happen. -/
theorem WellFormed.winds_on (wf : WellFormed env broker) (left : 0 < broker.remaining) :
    ∃ event next, event.Winds ∧ VmnetBroker.step env broker event = some next := by
  cases connected : broker.peers.entries with
  | cons entry rest =>
    have member : entry.1 ∈ broker.peers :=
      AList.mem_of_lookup (List.mem_dlookup broker.peers.nodupKeys (by rw [connected]; exact List.mem_cons_self ..))
    obtain ⟨next, stepped⟩ := wf.disconnect_runs_on member
    exact ⟨.peer entry.1 .connectionInvalid {}, next, rfl, stepped⟩
  | nil =>
    cases bound : broker.registered.entries with
    | nil => simp [Broker.remaining, connected, bound] at left
    | cons entry rest =>
      have registered : broker.registered.lookup entry.1 = some entry.2 :=
        List.mem_dlookup broker.registered.nodupKeys (by rw [bound]; exact List.mem_cons_self ..)
      obtain ⟨value, live⟩ := AList.exists_lookup (wf.live_of_registered registered)
      have idle : value.peers = 0 := by
        rw [wf.counted _ value live, Broker.owners, connected]
        rfl
      obtain ⟨source, armed⟩ := Option.isSome_iff_exists.mp ((wf.timed _ value live).mpr idle)
      obtain ⟨next, stepped⟩ := wf.timer_runs_on ((wf.network_timer source entry.2).mpr ⟨value, live, armed⟩)
      exact ⟨.timer source, next, trivial, stepped⟩

/-- What ends a broker that winds down is its idle timer, and then everything has been given back. -/
theorem WellFormed.wound_down (wf : WellFormed env broker) (enabled : Enabled broker event) (winds : event.Winds) :
    (∃ next, outcome env broker event = .running next) ∨
      ∃ source final, event = .timer source ∧ broker.idleTimer = some source ∧ broker.connectedPeers = 0 ∧
        outcome env broker event = .exited .idleTimeout final ∧ final.registry = none ∧ final.heap = ∅ ∧
        final.objects = {source} := by
  have effect := outcome_effect wf enabled
  generalize outcome env broker event = after at effect ⊢
  cases effect with
  | running => exact Or.inl ⟨_, rfl⟩
  | @shutdown _ exit final stops registry heap objects =>
    have unconnected := stops.connectedPeers wf
    unfold Event.Stops at stops
    split at stops
    · contradiction
    · next source =>
      exact Or.inr ⟨source, final, rfl, stops, unconnected, rfl, registry, heap, by rw [objects, stops]; rfl⟩
    · contradiction
  | listenerFailed | nullKey => contradiction
  | sourceCreateFailed uncreated =>
    change _ = true at winds
    rw [uncreated] at winds
    contradiction

/-- Left alone, and with its dispatch sources created, the broker winds down to nothing, one step for each connection
and each reservation. -/
theorem broker_winds_down (reachable : Reachable env broker) (winds : ∀ event ∈ events, event.Winds)
    (ran : Machine.run (step env) broker events = some next) :
    events.length + next.remaining = broker.remaining ∧
    ((∀ event, event.Winds → step env next event = none) ↔ next.remaining = 0) ∧
    ∀ event, event.Winds → Enabled next event → (∃ later, outcome env next event = .running later) ∨
      ∃ source final, event = .timer source ∧ next.idleTimer = some source ∧ next.connectedPeers = 0 ∧
        outcome env next event = .exited .idleTimeout final ∧ final.registry = none ∧ final.heap = ∅ ∧
        final.objects = {source} := by
  have wf := reachable.wellFormed
  have nextWf := wf.run ran
  refine ⟨?_, ?_, fun event winds enabled => nextWf.wound_down enabled winds⟩
  · refine Machine.run_measure Event.Winds (WellFormed env) Broker.remaining ?_ wf winds ran
    intro state event after stateWf winds stepped
    have effect := step_effect stateWf stepped
    exact ⟨stateWf.effect effect, effect.remaining winds⟩
  · constructor
    · intro stuck
      by_contra left
      obtain ⟨event, later, winds, stepped⟩ := nextWf.winds_on (Nat.pos_of_ne_zero left)
      rw [stuck event winds] at stepped
      contradiction
    · intro done event winds
      cases stepped : step env next event with
      | none => rfl
      | some later =>
        have spent := (step_effect nextWf stepped).remaining winds
        omega

/-- Two peers leave, and one reservation is left. -/
theorem broker_winds_down_sharedInUse : ∃ broker next, run builtinEnvironment sharedInUse = some broker ∧
    Machine.run (step builtinEnvironment) broker
      [.peer 1 .connectionInvalid {}, .peer 2 .connectionInvalid {}] = some next ∧ next.remaining = 1 := by
  have checked : ((run builtinEnvironment sharedInUse).bind fun broker =>
      (Machine.run (step builtinEnvironment) broker
        [.peer 1 .connectionInvalid {}, .peer 2 .connectionInvalid {}]).map fun _ => broker.remaining) = some 3 := by
    decide +kernel
  obtain ⟨broker, ran, rest⟩ := Option.bind_eq_some_iff.mp checked
  obtain ⟨next, continued, count⟩ := Option.map_eq_some_iff.mp rest
  have winds : ∀ event ∈ [Event.peer 1 .connectionInvalid {}, .peer 2 .connectionInvalid {}], event.Winds := by
    intro event member
    simp only [List.mem_cons, List.not_mem_nil, or_false] at member
    rcases member with rfl | rfl <;> rfl
  have spent := (broker_winds_down ⟨sharedInUse, ran⟩ winds continued).1
  refine ⟨broker, next, ran, continued, ?_⟩
  rw [count] at spent
  change 2 + _ = 3 at spent
  omega

end Winding

end VmnetBroker
