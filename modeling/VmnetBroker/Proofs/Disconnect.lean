import VmnetBroker.Proofs.Request

/-! # Releasing the networks of a peer

The loop of `release_peer_networks` pops one entry at a time. Each round lowers one count and arms
the timer of a network that lost its last peer, so coherence and the timer rule hold again before
the next round. `Broker.Released` collects what a sequence of rounds did to the blocks: the popped
networks lost one peer each, the other blocks are untouched, and nothing was registered or removed.
-/

namespace VmnetBroker

open BrokerM

variable {Key : Type}

/-- The networks in the list, and only they, lost one peer. -/
structure Broker.Released (broker next : Broker Key) (popped : List Address) : Prop where
  registry : next.registry = broker.registry
  connectedPeers : next.connectedPeers = broker.connectedPeers
  idleTimer : next.idleTimer = broker.idleTimer
  transactionBegins : next.transactionBegins = broker.transactionBegins
  transactionEnds : next.transactionEnds = broker.transactionEnds
  sent : next.sent = broker.sent
  untouched : ∀ network, network ∉ popped → next.heap.lookup network = broker.heap.lookup network
  lowered : ∀ network ∈ popped, ∀ value, broker.heap.lookup network = some value →
    ∃ timer, next.heap.lookup network =
      some { value with peers := value.peers - 1, idleTimer := timer }

namespace Broker.Released

variable {broker middle next : Broker Key} {front : List Address} {network : Address}

theorem refl (broker : Broker Key) : broker.Released broker [] :=
  ⟨rfl, rfl, rfl, rfl, rfl, rfl, fun _ _ => rfl, by simp⟩

/-- A round on a network that the later rounds do not pop. -/
theorem trans (round : broker.Released middle [network]) (rest : middle.Released next front)
    (once : network ∉ front) : broker.Released next (front ++ [network]) where
  registry := rest.registry.trans round.registry
  connectedPeers := rest.connectedPeers.trans round.connectedPeers
  idleTimer := rest.idleTimer.trans round.idleTimer
  transactionBegins := rest.transactionBegins.trans round.transactionBegins
  transactionEnds := rest.transactionEnds.trans round.transactionEnds
  sent := rest.sent.trans round.sent
  untouched other absent := by
    rw [List.mem_append, not_or] at absent
    rw [rest.untouched other absent.1, round.untouched other absent.2]
  lowered other member value live := by
    rcases List.mem_append.mp member with later | now
    · have different : other ∉ [network] := by
        rintro (_ | _)
        · exact once later
        · contradiction
      exact rest.lowered other later value ((round.untouched other different).trans live)
    · obtain ⟨timer, lowered⟩ := round.lowered other now value live
      refine ⟨timer, ?_⟩
      rw [rest.untouched other (List.mem_singleton.mp now ▸ once), lowered]

/-- Releasing networks renames none of them. -/
theorem name_origin {popped : List Address} (released : broker.Released next popped)
    (live : ∀ network ∈ popped, network ∈ broker.heap) {after : Network}
    (lookup : next.heap.lookup network = some after) :
    ∃ before, broker.heap.lookup network = some before ∧ before.name = after.name := by
  by_cases member : network ∈ popped
  · obtain ⟨before, found⟩ := AList.exists_lookup (live network member)
    obtain ⟨timer, lowered⟩ := released.lowered network member before found
    obtain rfl := Option.some.inj (lowered.symm.trans lookup)
    exact ⟨before, found, rfl⟩
  · exact ⟨after, (released.untouched network member).symm.trans lookup, rfl⟩

end Broker.Released

variable {broker : Broker Key} {network : Address} {value : Network} {calls : Calls} {peer : Connection}
  {ctx : BrokerContext} {front : List Address}

/-- Arming a network whose timer is not set only needs a dispatch source. -/
theorem run_removeLater (broker : Broker Key) (live : broker.heap.lookup network = some value)
    (unarmed : value.idleTimer = none) : (removeLater network calls).run broker =
      if calls.dispatchSourceCreate then .ok ((), { broker with
        heap := broker.heap.insert network { value with idleTimer := some ⟨.source, broker.nextObject⟩ }
        sources := broker.sources.insert ⟨.source, broker.nextObject⟩ (.removeNetwork network)
        objects := ⟨.source, broker.nextObject⟩ ::ₘ broker.objects
        nextObject := broker.nextObject + 1 })
      else .error .sourceCreateFailed := by
  cases created : calls.dispatchSourceCreate with
  | true => simp [removeLater, run_load live, unarmed, run_createSource _ created, run_store, AList.mem_of_lookup live]
  | false => simp [removeLater, run_load live, unarmed, createSource, created]

/-- A round pops the last entry and counts, before it decides about the timer. -/
theorem run_releaseLastNetwork_eq (calls : Calls)
    (found : broker.peers.lookup peer = some { networks := front ++ [network] })
    (live : broker.heap.lookup network = some value) : (releaseLastNetwork peer calls).run broker =
      (if value.peers - 1 = 0 then removeLater network calls else pure () : BrokerM Key Unit).run { broker with
        peers := broker.peers.insert peer { networks := front }
        heap := broker.heap.insert network { value with peers := value.peers - 1 } } := by
  have lookup : { broker with peers := broker.peers.insert peer { networks := front } }.heap.lookup network =
      some value := live
  simp [releaseLastNetwork, run_context found, run_load lookup, run_store, AList.mem_of_lookup live]

variable [DecidableEq Key] {env : Environment Key}

/-- One round keeps the invariants, unless the timer of an idle network cannot be created. -/
theorem run_releaseLastNetwork (calls : Calls) (coherent : Coherent env broker) (timed : broker.Timed)
    (found : broker.peers.lookup peer = some { networks := front ++ [network] }) :
    ((releaseLastNetwork peer calls).run broker = .error .sourceCreateFailed ∧
        calls.dispatchSourceCreate = false) ∨
      ∃ next, (releaseLastNetwork peer calls).run broker = .ok ((), next) ∧ Coherent env next ∧ next.Timed ∧
        next.peers = broker.peers.insert peer { networks := front } ∧ broker.Released next [network] := by
  have member : network ∈ front ++ [network] := List.mem_append_right _ (List.mem_singleton_self _)
  have nodup := coherent.held_nodup peer _ found
  have once : network ∉ front := fun again =>
    (List.nodup_append.mp nodup).2.2 network again network (List.mem_singleton_self _) rfl
  obtain ⟨value, live⟩ := AList.exists_lookup (coherent.held_live peer _ found network member)
  have positive := owners_pos found member
  have count := coherent.counted network value live
  have unarmed : value.idleTimer = none := by
    rw [← Option.not_isSome_iff_eq_none, timed network value live]
    omega
  have lowered : Coherent env { broker with
      peers := broker.peers.insert peer { networks := front }
      heap := broker.heap.insert network { value with peers := value.peers - 1 } } := by
    apply coherent.recount found live (List.nodup_append.mp nodup).1
    · have bounded := coherent.held_bounded peer _ found
      simp only [List.length_append] at bounded
      exact (Nat.le_add_right _ _).trans bounded
    · intro other held
      exact coherent.held_live peer _ found other (List.mem_append_left _ held)
    · intro other different
      simp [different]
    · simp [once]
  have elsewhere : ∀ {other : Address} {stored written : Network}, other ≠ network →
      (broker.heap.insert network written).lookup other = some stored →
        (stored.idleTimer.isSome = true ↔ stored.peers = 0) :=
    fun different lookup => timed _ _ ((AList.lookup_insert_ne different).symm.trans lookup)
  have untouched (written : Network) : ∀ other, other ∉ [network] →
      (broker.heap.insert network written).lookup other = broker.heap.lookup other :=
    fun other different => AList.lookup_insert_ne (by simpa using different)
  rw [run_releaseLastNetwork_eq calls found live]
  by_cases last : value.peers - 1 = 0
  · have written : (broker.heap.insert network { value with peers := value.peers - 1 }).lookup network =
        some { value with peers := value.peers - 1 } := AList.lookup_insert _
    have stillUnarmed : { value with peers := value.peers - 1 }.idleTimer = none := unarmed
    rw [if_pos last, run_removeLater _ written stillUnarmed]
    cases created : calls.dispatchSourceCreate with
    | false => exact Or.inl ⟨rfl, rfl⟩
    | true =>
      refine Or.inr ⟨_, rfl, lowered.arm written stillUnarmed, ?_, rfl, ?_⟩
      · intro other stored lookup
        simp only [AList.insert_insert] at lookup
        by_cases same : other = network
        · rw [same, AList.lookup_insert] at lookup
          obtain rfl := Option.some.inj lookup
          simpa using last
        · exact elsewhere same lookup
      · refine ⟨rfl, rfl, rfl, rfl, rfl, rfl, ?_, ?_⟩
        · simp only [AList.insert_insert]
          exact untouched _
        · intro other popped stored lookup
          obtain rfl := List.mem_singleton.mp popped
          obtain rfl := Option.some.inj (live.symm.trans lookup)
          simp only [AList.insert_insert]
          exact ⟨_, AList.lookup_insert _⟩
  · rw [if_neg last]
    refine Or.inr ⟨_, rfl, lowered, ?_, rfl, ?_⟩
    · intro other stored lookup
      by_cases same : other = network
      · rw [AList.lookup_insert_eq, if_pos same] at lookup
        obtain rfl := Option.some.inj lookup
        simp [unarmed, last]
      · exact elsewhere same lookup
    · refine ⟨rfl, rfl, rfl, rfl, rfl, rfl, untouched _, ?_⟩
      intro other popped stored lookup
      obtain rfl := List.mem_singleton.mp popped
      obtain rfl := Option.some.inj (live.symm.trans lookup)
      exact ⟨none, by rw [← unarmed]; exact AList.lookup_insert _⟩

/-- The whole loop, by induction on the entries that are left to pop. -/
theorem run_releaseNetworks (calls : Calls) (networks : List Address) (coherent : Coherent env broker)
    (timed : broker.Timed) (found : broker.peers.lookup peer = some { networks := networks }) :
    ((releaseNetworks peer calls networks.length).run broker = .error .sourceCreateFailed ∧
        calls.dispatchSourceCreate = false) ∨
      ∃ next, (releaseNetworks peer calls networks.length).run broker = .ok ((), next) ∧
        Coherent env next ∧ next.Timed ∧ next.peers.lookup peer = some {} ∧
        next.peers.erase peer = broker.peers.erase peer ∧ broker.Released next networks := by
  induction networks using List.reverseRecOn generalizing broker with
  | nil => exact Or.inr ⟨broker, rfl, coherent, timed, found, rfl, .refl broker⟩
  | append_singleton front network ih =>
    have once : network ∉ front := fun again =>
      (List.nodup_append.mp (coherent.held_nodup peer _ found)).2.2 network again network
        (List.mem_singleton_self _) rfl
    rw [List.length_append, List.length_singleton, releaseNetworks, StateT.run_bind]
    rcases run_releaseLastNetwork calls coherent timed found with ⟨failed, uncreated⟩ | round
    · exact Or.inl ⟨by rw [failed]; rfl, uncreated⟩
    · obtain ⟨middle, popped, middleCoherent, middleTimed, peers, released⟩ := round
      have shorter : middle.peers.lookup peer = some { networks := front } := by
        rw [peers, AList.lookup_insert]
      rw [popped, ok_bind]
      rcases ih middleCoherent middleTimed shorter with failed | rest
      · exact Or.inl failed
      · obtain ⟨next, ran, nextCoherent, nextTimed, emptied, others, restReleased⟩ := rest
        refine Or.inr ⟨next, ran, nextCoherent, nextTimed, emptied, ?_, released.trans restReleased once⟩
        rw [others, peers, AList.erase_insert_self]

end VmnetBroker
