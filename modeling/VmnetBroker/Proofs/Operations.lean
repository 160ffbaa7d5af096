import VmnetBroker.Proofs.Coherence

/-! # What each network operation does

One equation for each function of `network.c`, on the states in which the broker calls it. The
callers' proofs rewrite with these equations and never unfold a callee. Object identities grow
along the way, so an equation states the next unused identity only where an object survives.
-/

namespace VmnetBroker

open BrokerM

variable {Key : Type} {broker : Broker Key} {network : Address} {value : Network} {calls : Calls}
  {error : Int32} {name : CString} {peer : Connection} {ctx : BrokerContext}

private theorem run_releaseIfSet {object : Option Object} {rest : Multiset Object}
    (split : broker.objects = object.toList + rest) :
    (releaseIfSet object).run broker = .ok ((), { broker with objects := rest }) := by
  cases object with
  | none =>
    have same : broker.objects = rest := by simpa using split
    simp [releaseIfSet, ← same]
  | some object =>
    have owned : object ∈ broker.objects := by simp [split]
    have erased : broker.objects.erase object = rest := by simp [split]
    simp [releaseIfSet, run_release owned, erased]

/-- A freed block gives back each reference it holds and cancels its timer. -/
theorem run_freeNetwork (broker : Broker Key) (live : broker.heap.lookup network = some value)
    {rest : Multiset Object} (split : broker.objects = value.references + rest) :
    (freeNetwork (some network)).run broker = .ok ((), { broker with
      heap := broker.heap.erase network
      sources := value.idleTimer.elim broker.sources broker.sources.erase
      objects := rest }) := by
  have parts : broker.objects = value.ref.toList + (value.serialization.toList +
      (value.idleTimer.toList + rest)) := by
    simp only [split, Network.references, ← Multiset.coe_add, add_assoc]
  simp only [freeNetwork, StateT.run_bind, run_load live, ok_bind, run_releaseIfSet parts]
  rw [run_releaseIfSet rfl]
  cases armed : value.idleTimer with
  | none => simp
  | some timer => simp [run_release]

/-- A created network is complete, unowned and unarmed. -/
theorem run_createNetwork_ok (broker : Broker Key) (allocated : calls.calloc = some network)
    (good : calls.builds = true) :
    (createNetwork name calls error).run broker = .ok ((some network, error), { broker with
      heap := broker.heap.insert network
        { name := some name, ref := some ⟨.network, broker.nextObject⟩,
          serialization := some ⟨.serialization, broker.nextObject + 1⟩ }
      objects := ⟨.serialization, broker.nextObject + 1⟩ ::ₘ ⟨.network, broker.nextObject⟩ ::ₘ broker.objects
      nextObject := broker.nextObject + 2 }) := by
  simp only [Calls.builds, Bool.and_eq_true] at good
  obtain ⟨⟨⟨_, copied⟩, created⟩, serialized⟩ := good
  simp [createNetwork, allocated, copied, created, serialized, run_store]

/-- The failure label undoes the part of the construction that was reached. -/
private theorem run_createNetworkFailure (value : Network) (absent : network ∉ broker.heap)
    (unarmed : value.idleTimer = none) (next : ℕ) :
    (createNetworkFailure (some network)).run { broker with
        heap := broker.heap.insert network value
        objects := value.references + broker.objects
        nextObject := next } =
      .ok ((none, VmnetBrokerReturn.createFailure.toInt), { broker with nextObject := next }) := by
  simp only [createNetworkFailure, StateT.run_bind]
  rw [run_freeNetwork _ (AList.lookup_insert _) rfl]
  simp [unarmed, AList.erase_insert_of_notMem absent]

/-- Every failure exit frees the block and its references. -/
theorem run_createNetwork_error (broker : Broker Key) (name : CString) (error : Int32)
    (fresh : ∀ network ∈ calls.calloc, network ∉ broker.heap)
    (bad : calls.builds = false) :
    ∃ next, broker.nextObject ≤ next ∧ (createNetwork name calls error).run broker =
      .ok ((none, VmnetBrokerReturn.createFailure.toInt), { broker with nextObject := next }) := by
  cases allocated : calls.calloc with
  | none =>
    exact ⟨broker.nextObject, le_rfl, by simp [createNetwork, createNetworkFailure, freeNetwork, allocated]⟩
  | some network =>
    have absent : network ∉ broker.heap := fresh network allocated
    cases copied : calls.strdup with
    | false =>
      refine ⟨broker.nextObject, le_rfl, ?_⟩
      have undone := run_createNetworkFailure {} absent rfl broker.nextObject
      simpa [createNetwork, allocated, copied, Network.references] using undone
    | true =>
      cases created : calls.vmnetNetworkCreate with
      | false =>
        refine ⟨broker.nextObject, le_rfl, ?_⟩
        have undone := run_createNetworkFailure { name := some name } absent rfl broker.nextObject
        simpa [createNetwork, allocated, copied, created, Network.references, run_store] using undone
      | true =>
        have serialized : calls.vmnetNetworkCopySerialization = false := by
          simpa [Calls.builds, allocated, copied, created] using bad
        refine ⟨broker.nextObject + 1, Nat.le_succ _, ?_⟩
        have undone := run_createNetworkFailure
          { name := some name, ref := some ⟨.network, broker.nextObject⟩ } absent rfl (broker.nextObject + 1)
        simpa [createNetwork, allocated, copied, created, serialized, Network.references, run_store] using undone

/-- Cancelling an armed timer returns its source; without a timer nothing changes. -/
theorem run_cancelRemoveLater (broker : Broker Key) (live : broker.heap.lookup network = some value)
    (owned : ∀ timer ∈ value.idleTimer, timer ∈ broker.objects) :
    (cancelRemoveLater network).run broker = .ok ((), match value.idleTimer with
      | none => broker
      | some timer => { broker with
          heap := broker.heap.insert network { value with idleTimer := none }
          sources := broker.sources.erase timer
          objects := broker.objects.erase timer }) := by
  cases armed : value.idleTimer with
  | none => simp [cancelRemoveLater, run_load live, armed]
  | some timer =>
    have member : timer ∈ broker.objects := owned timer armed
    simp [cancelRemoveLater, run_load live, armed, run_release, member, run_store, AList.mem_of_lookup live]

theorem canAddNetworkToPeer_room (room : ctx.networks.length < maxPeerNetworks) :
    canAddNetworkToPeer ctx error = (true, error) :=
  if_neg (by omega)

theorem canAddNetworkToPeer_full (full : maxPeerNetworks ≤ ctx.networks.length) :
    canAddNetworkToPeer ctx error = (false, VmnetBrokerReturn.internalError.toInt) :=
  if_pos full

theorem run_updatePeerOwnership_owned (broker : Broker Key) (found : broker.peers.lookup peer = some ctx)
    (owned : network ∈ ctx.networks) :
    (updatePeerOwnership peer network error).run broker = .ok ((true, error), broker) := by
  simp [updatePeerOwnership, run_context found, peerOwnsNetwork, owned]

theorem run_updatePeerOwnership_full (broker : Broker Key) (found : broker.peers.lookup peer = some ctx)
    (unowned : network ∉ ctx.networks) (full : maxPeerNetworks ≤ ctx.networks.length) :
    (updatePeerOwnership peer network error).run broker =
      .ok ((false, VmnetBrokerReturn.internalError.toInt), broker) := by
  simp [updatePeerOwnership, run_context found, peerOwnsNetwork, unowned, canAddNetworkToPeer_full full]

theorem run_updatePeerOwnership_added (broker : Broker Key) (found : broker.peers.lookup peer = some ctx)
    (unowned : network ∉ ctx.networks) (room : ctx.networks.length < maxPeerNetworks)
    (live : broker.heap.lookup network = some value) :
    (updatePeerOwnership peer network error).run broker = .ok ((true, error), { broker with
      peers := broker.peers.insert peer { networks := ctx.networks ++ [network] }
      heap := broker.heap.insert network { value with peers := value.peers + 1 } }) := by
  simp [updatePeerOwnership, run_context found, peerOwnsNetwork, unowned, canAddNetworkToPeer_room room,
    run_load, run_store, live, AList.mem_of_lookup live]

section Registry

variable [DecidableEq Key] {env : Environment Key} {key : Key}

/-- A name without a key ends the process at the first dictionary call. -/
theorem run_registryGet_null (invalid : env.createWithCString name = none) :
    (registryGet env name).run broker = .error .nullKey := by
  simp [registryGet, withKey, invalid]

theorem run_registryGet (broker : Broker Key) (created : env.createWithCString name = some key)
    {registry : AList fun _ : Key => Address} (initialized : broker.registry = some registry) :
    (registryGet env name).run broker =
      .ok (registry.lookup key, { broker with nextObject := broker.nextObject + 1 }) := by
  simp [registryGet, withKey, created, registryDictionary, initialized, run_release]

theorem run_registrySet (broker : Broker Key) (created : env.createWithCString name = some key)
    {registry : AList fun _ : Key => Address} (initialized : broker.registry = some registry)
    (unused : registry.lookup key = none) :
    (registrySet env name network).run broker = .ok ((), { broker with
      registry := some (registry.insert key network)
      nextObject := broker.nextObject + 1 }) := by
  simp [registrySet, withKey, created, registryDictionary, initialized, run_release, unused]

/-- Removing a registered name frees its network. -/
theorem run_registryRemove (broker : Broker Key) (created : env.createWithCString name = some key)
    {registry : AList fun _ : Key => Address} (initialized : broker.registry = some registry)
    (found : registry.lookup key = some network) (live : broker.heap.lookup network = some value)
    {rest : Multiset Object} (split : broker.objects = value.references + rest) :
    (registryRemove env name).run broker = .ok ((), { broker with
      registry := some (registry.erase key)
      heap := broker.heap.erase network
      sources := value.idleTimer.elim broker.sources broker.sources.erase
      objects := rest
      nextObject := broker.nextObject + 1 }) := by
  have extended : (⟨.key, broker.nextObject⟩ : Object) ::ₘ broker.objects =
      value.references + ⟨.key, broker.nextObject⟩ ::ₘ rest := by
    rw [split, Multiset.add_cons]
  have freed := run_freeNetwork { broker with
      registry := some (registry.erase key)
      objects := ⟨.key, broker.nextObject⟩ ::ₘ broker.objects
      nextObject := broker.nextObject + 1 } live extended
  simp only [registryRemove, withKey, created, StateT.run_bind, run_create, ok_bind, registryDictionary,
    StateT.run_get, pure_eq_ok, initialized, StateT.run_pure, StateT.run_modify, found, registryRelease,
    freed]
  simp [run_release]

end Registry

end VmnetBroker
