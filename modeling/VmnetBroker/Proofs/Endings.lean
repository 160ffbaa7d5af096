import VmnetBroker.Proofs.Step

/-! # When a disconnect fails

The only failure of a disconnect is the assertion on a new dispatch source. It needs one for every network whose
last peer leaves, and one for the broker when nobody stays. The loop of `release_peer_networks` meets each network
once, so the counts before the loop tell whether a round fails.
-/

namespace VmnetBroker

open BrokerM

variable {Key : Type} [DecidableEq Key] {env : Environment Key} {broker : Broker Key} {network : Address}
  {value : Network} {calls : Calls} {peer : Connection} {ctx : BrokerContext} {front networks : List Address}

omit [DecidableEq Key] in
/-- A network has one owner when no other peer holds it. -/
theorem owners_eq_one_iff (found : broker.peers.lookup peer = some ctx) (member : network ∈ ctx.networks) :
    broker.owners network = 1 ↔
      ∀ other held, broker.peers.lookup other = some held → network ∈ held.networks → other = peer := by
  have recount := owners_insert found {} network
  rw [if_pos member, if_neg (List.not_mem_nil), Nat.add_zero] at recount
  have zero : broker.owners network = 1 ↔
      { broker with peers := broker.peers.insert peer {} }.owners network = 0 := by
    omega
  rw [zero, owners_eq_zero_iff]
  constructor
  · intro alone other held lookup holds
    by_contra different
    exact alone other held ((AList.lookup_insert_ne different).trans lookup) holds
  · intro alone other held lookup holds
    rw [AList.lookup_insert_eq] at lookup
    split at lookup
    · cases lookup
      exact List.not_mem_nil holds
    · next different => exact different (alone other held lookup holds)

/-- Some network of the list has one peer. -/
def Broker.Vacates (broker : Broker Key) (networks : List Address) : Prop :=
  ∃ network ∈ networks, ∃ value, broker.heap.lookup network = some value ∧ value.peers = 1

/-- Without dispatch sources, a round fails when the network loses its last peer. -/
theorem run_releaseLastNetwork_uncreated (uncreated : calls.dispatchSourceCreate = false)
    (coherent : Coherent env broker) (timed : broker.Timed)
    (found : broker.peers.lookup peer = some { networks := front ++ [network] })
    (live : broker.heap.lookup network = some value) :
    (releaseLastNetwork peer calls).run broker = .error .sourceCreateFailed ↔ value.peers = 1 := by
  have member : network ∈ front ++ [network] := List.mem_append_right _ (List.mem_singleton_self _)
  have counted := coherent.counted network value live
  have positive := owners_pos found member
  have unarmed : value.idleTimer = none := by
    rw [← Option.not_isSome_iff_eq_none, timed network value live]
    omega
  have written : (broker.heap.insert network { value with peers := value.peers - 1 }).lookup network =
      some { value with peers := value.peers - 1 } := AList.lookup_insert _
  have stillUnarmed : { value with peers := value.peers - 1 }.idleTimer = none := unarmed
  rw [run_releaseLastNetwork_eq calls found live]
  by_cases last : value.peers - 1 = 0
  · rw [if_pos last, run_removeLater _ written stillUnarmed, uncreated]
    exact iff_of_true rfl (by omega)
  · rw [if_neg last]
    exact iff_of_false (by simp) (by omega)

/-- Without dispatch sources, the loop fails when some network loses its last peer. -/
theorem run_releaseNetworks_uncreated (uncreated : calls.dispatchSourceCreate = false)
    (coherent : Coherent env broker) (timed : broker.Timed)
    (found : broker.peers.lookup peer = some { networks := networks }) :
    (releaseNetworks peer calls networks.length).run broker = .error .sourceCreateFailed ↔
      broker.Vacates networks := by
  induction networks using List.reverseRecOn generalizing broker with
  | nil => exact iff_of_false (by simp [releaseNetworks]) (by simp [Broker.Vacates])
  | append_singleton front network ih =>
    have member : network ∈ front ++ [network] := List.mem_append_right _ (List.mem_singleton_self _)
    obtain ⟨value, live⟩ := AList.exists_lookup (coherent.held_live peer _ found network member)
    have once : network ∉ front := fun again =>
      (List.nodup_append.mp (coherent.held_nodup peer _ found)).2.2 network again network
        (List.mem_singleton_self _) rfl
    have exact_round := run_releaseLastNetwork_uncreated uncreated coherent timed found live
    rw [List.length_append, List.length_singleton, releaseNetworks, StateT.run_bind]
    rcases run_releaseLastNetwork calls coherent timed found with ⟨failed, _⟩ | round
    · rw [failed]
      exact iff_of_true rfl ⟨network, member, value, live, exact_round.mp failed⟩
    · obtain ⟨middle, popped, middleCoherent, middleTimed, peers, released⟩ := round
      have shorter : middle.peers.lookup peer = some { networks := front } := by
        rw [peers, AList.lookup_insert]
      have several : value.peers ≠ 1 := by
        intro single
        rw [popped] at exact_round
        cases exact_round.mpr single
      have untouched : ∀ other ∈ front, middle.heap.lookup other = broker.heap.lookup other := by
        intro other early
        apply released.untouched
        rw [List.mem_singleton]
        rintro rfl
        exact once early
      rw [popped, ok_bind, ih middleCoherent middleTimed shorter]
      constructor
      · rintro ⟨other, early, stored, lookup, single⟩
        exact ⟨other, List.mem_append_left _ early, stored, (untouched other early).symm.trans lookup, single⟩
      · rintro ⟨other, held, stored, lookup, single⟩
        rcases List.mem_append.mp held with early | last
        · exact ⟨other, early, stored, (untouched other early).trans lookup, single⟩
        · rw [List.mem_singleton.mp last, live] at lookup
          obtain rfl := Option.some.inj lookup
          exact absurd single several

/-- Without dispatch sources, a disconnect fails when it leaves a network or the broker without peers. -/
theorem outcome_connectionInvalid_uncreated (uncreated : calls.dispatchSourceCreate = false)
    (wf : WellFormed env broker) (found : broker.peers.lookup peer = some ctx) :
    outcome env broker (.peer peer .connectionInvalid calls) = .crashed .sourceCreateFailed ↔
      broker.connectedPeers = 1 ∨ broker.Vacates ctx.networks := by
  have uncounted : Coherent env { broker with connectedPeers := broker.connectedPeers - 1 } :=
    wf.toCoherent.congr rfl rfl rfl rfl rfl rfl le_rfl
  have stillFound : { broker with connectedPeers := broker.connectedPeers - 1 }.peers.lookup peer = some ctx := found
  have vacates := run_releaseNetworks_uncreated uncreated uncounted wf.timed stillFound
  change _ ↔ broker.Vacates ctx.networks at vacates
  have positive : 0 < broker.connectedPeers := by
    have length := AList.length_erase_of_lookup found
    have connected := wf.connected
    omega
  rcases run_releaseNetworks calls ctx.networks uncounted wf.timed stillFound with ⟨failed, _⟩ | loop
  · have crashed : (handle env (.peer peer .connectionInvalid calls)).run broker = .error .sourceCreateFailed := by
      simp only [handle, peerHandler, onPeerDisconnect, releasePeerNetworks, StateT.run_bind, StateT.run_modify,
        pure_eq_ok, ok_bind, run_context stillFound, failed]
      rfl
    exact iff_of_true (outcome_of_error crashed) (Or.inr (vacates.mp failed))
  · obtain ⟨middle, released, _, _, _, _, effect⟩ := loop
    have kept : ¬ broker.Vacates ctx.networks := by
      rw [← vacates, released]
      simp
    have count : middle.connectedPeers = broker.connectedPeers - 1 := effect.connectedPeers
    by_cases last : middle.connectedPeers = 0
    · have idle : { middle with transactionEnds := middle.transactionEnds + 1 }.idleTimer = none :=
        effect.idleTimer.trans (wf.unarmed (AList.mem_of_lookup found))
      have crashed : (handle env (.peer peer .connectionInvalid calls)).run broker =
          .error .sourceCreateFailed := by
        simp only [handle, peerHandler, onPeerDisconnect, releasePeerNetworks, StateT.run_bind, StateT.run_modify,
          pure_eq_ok, ok_bind, run_context stillFound, released, StateT.run_get, if_pos last,
          run_shutdownLater _ calls idle, uncreated]
        rfl
      exact iff_of_true (outcome_of_error crashed) (Or.inl (by omega))
    · have running : ∃ next, (handle env (.peer peer .connectionInvalid calls)).run broker = .ok (none, next) := by
        simp only [handle, peerHandler, onPeerDisconnect, releasePeerNetworks, StateT.run_bind, StateT.run_modify,
          pure_eq_ok, ok_bind, run_context stillFound, released, StateT.run_get, if_neg last]
        exact ⟨_, rfl⟩
      obtain ⟨next, running⟩ := running
      refine iff_of_false ?_ ?_
      · rw [outcome_of_ok running]
        simp
      · rintro (single | vacates)
        · omega
        · exact kept vacates

end VmnetBroker
