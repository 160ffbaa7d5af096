import VmnetBroker.Model.Client
import VmnetBroker.Proofs.Step

/-! # Peer ownership in every reachable state

Ownership arrays, peer counts, idle timers and registry keys agree after every event, for any table
of networks, any order of events and any allocator, including one that hands out the address of
a freed network again. A failed acquire leaves all of them alone.
-/

namespace VmnetBroker

open BrokerM

variable {Key : Type} [DecidableEq Key] {env : Environment Key} {broker : Broker Key}

/-- The run that the examples below share: a network is acquired, idles out and gives its address to
another one. -/
def addressReuse : List Event :=
  [.listener (.connection 1),
    .peer 1 (.dictionary (acquireRequest (.ofString "shared"))) { calloc := some 16 },
    .peer 1 .connectionInvalid {},
    .timer ⟨.source, 6⟩,
    .listener (.connection 2),
    .peer 2 (.dictionary (acquireRequest (.ofString "host"))) { calloc := some 16 }]

/-- Arrays, counts, timers and keys agree after every event, and arming never meets a running timer. -/
theorem ownership_invariant (events : List Event) (ran : run env events = some broker) :
    (∀ peer ctx, broker.peers.lookup peer = some ctx →
      ctx.networks.length ≤ maxPeerNetworks ∧ ctx.networks.Nodup ∧
      ∀ network ∈ ctx.networks, ∃ key, broker.registered.lookup key = some network) ∧
    (∀ key network, broker.registered.lookup key = some network →
      ∃ value, broker.heap.lookup network = some value ∧
        value.peers = broker.owners network ∧ 0 ≤ value.peers ∧ value.peers ≤ broker.connectedPeers ∧
        (value.idleTimer.isSome = true ↔ value.peers = 0) ∧
        ∃ name, value.name = some name ∧ env.createWithCString name = some key) ∧
    ∀ event, Enabled broker event → outcome env broker event ≠ .crashed .networkTimerRunning := by
  have wf : WellFormed env broker := Reachable.wellFormed ⟨events, ran⟩
  refine ⟨?_, ?_, fun event enabled => wf.outcome_ne (by simp) (by simp) enabled⟩
  · intro peer ctx found
    refine ⟨wf.held_bounded peer ctx found, wf.held_nodup peer ctx found, ?_⟩
    intro network member
    exact wf.live_registered network (wf.held_live peer ctx found network member)
  · intro key network found
    obtain ⟨value, name, live, named, created⟩ := wf.registered_named key network found
    have counted := wf.counted network value live
    have bounded : broker.owners network ≤ broker.peers.entries.length := owners_le_length
    have connected := wf.connected
    refine ⟨value, live, counted, ?_, ?_, wf.timed network value live, name, named, created⟩
    · omega
    · omega

theorem ownership_invariant_addressReuse : ∃ broker, run builtinEnvironment addressReuse = some broker ∧
    broker.registered.lookup (CString.ofString "host").bytes = some 16 ∧
    ∃ value, broker.heap.lookup 16 = some value ∧ value.peers = broker.owners 16 := by
  obtain ⟨broker, ran⟩ : ∃ broker, run builtinEnvironment addressReuse = some broker :=
    Option.isSome_iff_exists.mp (by decide +kernel)
  have lookup : (run builtinEnvironment addressReuse).bind
      (fun broker => broker.registered.lookup (CString.ofString "host").bytes) = some 16 := by decide +kernel
  rw [ran] at lookup
  obtain ⟨value, live, counted, _⟩ := (ownership_invariant addressReuse ran).2.1 _ _ lookup
  exact ⟨broker, ran, lookup, value, live, counted⟩

section Acquire

variable {peer : Connection} {ctx : BrokerContext} {name : CString} {calls : Calls} {error code : Int32}
  {next : Broker Key}

/-- Every exit of `acquire_network` that returns NULL leaves the network layer alone. -/
private theorem AcquireEffect.unchanged {key : Key} {result : Option Object × Int32} {core : Broker Key}
    (effect : AcquireEffect env broker peer ctx name key calls error result core) (failed : result.1 = none) :
    core = broker := by
  cases effect with
  | owned | shared | created => contradiction
  | full | notFound | createFailure => rfl

omit [DecidableEq Key] in
/-- The limit check of `update_peer_ownership` repeats the one before the creation. -/
private theorem updatePeerOwnership_of_canAdd {network : Address} {state : Broker Key}
    (room : (canAddNetworkToPeer ctx error).1 = true) (found : state.peers.lookup peer = some ctx)
    (live : network ∈ state.heap) :
    ∃ after, (updatePeerOwnership peer network error).run state = .ok ((true, error), after) := by
  obtain ⟨value, lookup⟩ := AList.exists_lookup live
  have free : ctx.networks.length < maxPeerNetworks := by
    by_contra full
    rw [canAddNetworkToPeer_full (not_lt.mp full)] at room
    contradiction
  by_cases member : network ∈ ctx.networks
  · exact ⟨_, run_updatePeerOwnership_owned state found member⟩
  · exact ⟨_, run_updatePeerOwnership_added state found member free lookup⟩

/-- An acquire always completes, and one that returns NULL has changed no network, no count, no timer
and no array. In particular the second limit check never undoes a creation. -/
theorem failed_acquire_changes_nothing (reachable : Reachable env broker)
    (found : broker.peers.lookup peer = some ctx) (valid : name.ValidUtf8)
    (fresh : ∀ network ∈ calls.calloc, network ∉ broker.heap) :
    (∃ result next, (acquireNetwork env peer name calls error).run broker = .ok (result, next)) ∧
    (∀ code next, (acquireNetwork env peer name calls error).run broker = .ok ((none, code), next) →
      next.registered = broker.registered ∧ next.heap = broker.heap ∧ next.peers = broker.peers ∧
      next.sources = broker.sources) ∧
    ((canAddNetworkToPeer ctx error).1 = true → ∀ (state : Broker Key) (network : Address),
      state.peers.lookup peer = some ctx → network ∈ state.heap →
      ∃ after, (updatePeerOwnership peer network error).run state = .ok ((true, error), after)) := by
  have wf := reachable.wellFormed
  obtain ⟨key, created⟩ := env.exists_key valid
  obtain ⟨result, core, later, _, ran, effect⟩ :=
    acquireNetwork_effect error wf.toCoherent wf.timed found created fresh
  refine ⟨⟨_, _, ran⟩, ?_, fun room state network held live => updatePeerOwnership_of_canAdd room held live⟩
  intro code next failed
  rw [ran] at failed
  obtain ⟨rfl, rfl⟩ := Prod.mk.inj (Except.ok.inj failed)
  obtain rfl := effect.unchanged rfl
  exact ⟨rfl, rfl, rfl, rfl⟩

/-- A table with one network more than a peer may hold. -/
def crowdedEnvironment : Environment (List UInt8) :=
  { builtinEnvironment with
    networks := ["a", "b", "c", "d", "e", "f", "g", "h", "i"].map fun name =>
      { name := .ofString name, mode := .shared } }

/-- One peer leaves an idle network behind, another one fills its array. -/
def crowded : List Event :=
  [.listener (.connection 1), .listener (.connection 2),
    .peer 2 (.dictionary (acquireRequest (.ofString "i"))) { calloc := some 9 },
    .peer 2 .connectionInvalid {}] ++
  [("a", 1), ("b", 2), ("c", 3), ("d", 4), ("e", 5), ("f", 6), ("g", 7), ("h", 8)].map fun (name, address) =>
    .peer 1 (.dictionary (acquireRequest (.ofString name))) { calloc := some address }

theorem failed_acquire_changes_nothing_crowded : ∃ broker next, run crowdedEnvironment crowded = some broker ∧
    (acquireNetwork crowdedEnvironment 1 (.ofString "i") {} 0).run broker =
      .ok ((none, VmnetBrokerReturn.internalError.toInt), next) ∧
    next.heap = broker.heap ∧ next.peers = broker.peers := by
  have checked : (run crowdedEnvironment crowded).map (fun broker => (broker.peers.lookup 1,
      ((acquireNetwork crowdedEnvironment 1 (.ofString "i") {} 0).run broker).toOption.map (·.1))) =
      some (some { networks := [1, 2, 3, 4, 5, 6, 7, 8] },
        some (none, VmnetBrokerReturn.internalError.toInt)) := by decide +kernel
  obtain ⟨broker, ran, checks⟩ := Option.map_eq_some_iff.mp checked
  obtain ⟨found, returned⟩ := Prod.mk.inj checks
  obtain ⟨⟨result, next, acquired⟩, unchanged, _⟩ := failed_acquire_changes_nothing ⟨crowded, ran⟩ found
    (by decide : (CString.ofString "i").ValidUtf8) (by simp : ∀ network ∈ ({} : Calls).calloc, network ∉ broker.heap)
  rw [acquired] at returned
  obtain rfl := Option.some.inj returned
  obtain ⟨_, heap, peers, _⟩ := unchanged _ next acquired
  exact ⟨broker, next, ran, acquired, heap, peers⟩

end Acquire

end VmnetBroker
