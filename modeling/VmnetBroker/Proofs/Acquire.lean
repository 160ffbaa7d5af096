import VmnetBroker.Proofs.Operations

/-! # The possible effects of `acquire_network`

An acquire by a connected peer, for a name that has a registry key, always runs to completion.
`AcquireEffect` lists what it can do: return an owned network, attach the peer to a registered one,
create a network and attach the peer to it, or fail in one of the three ways the protocol names.
Every exit that returns NULL leaves the registry, the blocks and the contexts alone.
-/

namespace VmnetBroker

open BrokerM

variable {Key : Type}

namespace Broker

/-- A network without peers has its idle timer armed, and only such a network. -/
def Timed (broker : Broker Key) : Prop :=
  ∀ network value, broker.heap.lookup network = some value →
    (value.idleTimer.isSome = true ↔ value.peers = 0)

/-- The registry exists and some object identities have been used up. -/
def advance (broker : Broker Key) (later : ℕ) : Broker Key :=
  { broker with registry := some broker.registered, nextObject := later }

/-- The caller of `acquire_network` owns the reference that it returned. -/
def handOut (broker : Broker Key) : Option Object → Broker Key
  | none => broker
  | some object => { broker with objects := object ::ₘ broker.objects }

/-- Count one more peer for a network and cancel its removal. -/
def attach (broker : Broker Key) (peer : Connection) (ctx : BrokerContext) (network : Address)
    (value : Network) : Broker Key :=
  { broker with
    peers := broker.peers.insert peer { networks := ctx.networks ++ [network] }
    heap := broker.heap.insert network { value with peers := value.peers + 1, idleTimer := none }
    sources := value.idleTimer.elim broker.sources broker.sources.erase
    objects := value.idleTimer.elim broker.objects broker.objects.erase }

variable [DecidableEq Key]

/-- Bind a new network to its key. -/
def enroll (broker : Broker Key) (key : Key) (network : Address) (name : CString)
    (ref serialization : Object) (later : ℕ) : Broker Key :=
  { broker with
    registry := some (broker.registered.insert key network)
    heap := broker.heap.insert network
      { name := some name, ref := some ref, serialization := some serialization }
    objects := serialization ::ₘ ref ::ₘ broker.objects
    nextObject := later }

end Broker

variable [DecidableEq Key]

/-- What `acquire_network` can return, and the network layer it leaves behind. -/
inductive AcquireEffect (env : Environment Key) (broker : Broker Key) (peer : Connection)
    (ctx : BrokerContext) (name : CString) (key : Key) (calls : Calls) (error : Int32) :
    Option Object × Int32 → Broker Key → Prop
  | owned {network : Address} {value : Network} {serialization : Object}
      (registered : broker.registered.lookup key = some network) (member : network ∈ ctx.networks)
      (live : broker.heap.lookup network = some value) (stored : value.serialization = some serialization) :
      AcquireEffect env broker peer ctx name key calls error (some serialization, error) broker
  | shared {network : Address} {value : Network} {serialization : Object}
      (registered : broker.registered.lookup key = some network) (unowned : network ∉ ctx.networks)
      (room : ctx.networks.length < maxPeerNetworks) (live : broker.heap.lookup network = some value)
      (stored : value.serialization = some serialization) :
      AcquireEffect env broker peer ctx name key calls error (some serialization, error)
        (broker.attach peer ctx network value)
  | created {network : Address} {config : NetworkConfig} {ref serialization : Object} {later : ℕ}
      (unregistered : broker.registered.lookup key = none) (room : ctx.networks.length < maxPeerNetworks)
      (configured : env.networks.find? (·.name = name) = some config) (good : calls.creates config = true)
      (allocated : calls.calloc = some network) (absent : network ∉ broker.heap)
      (kinds : ref.kind = .network ∧ serialization.kind = .serialization)
      (refNew : broker.nextObject ≤ ref.id ∧ ref.id < later)
      (serializationNew : broker.nextObject ≤ serialization.id ∧ serialization.id < later) :
      AcquireEffect env broker peer ctx name key calls error (some serialization, error)
        ((broker.enroll key network name ref serialization later).attach peer ctx network
          { name := some name, ref := some ref, serialization := some serialization })
  | full (unowned : ∀ network, broker.registered.lookup key = some network → network ∉ ctx.networks)
      (full : maxPeerNetworks ≤ ctx.networks.length) :
      AcquireEffect env broker peer ctx name key calls error
        (none, VmnetBrokerReturn.internalError.toInt) broker
  | notFound (unregistered : broker.registered.lookup key = none)
      (room : ctx.networks.length < maxPeerNetworks) (unconfigured : ¬ env.Configured name) :
      AcquireEffect env broker peer ctx name key calls error
        (none, VmnetBrokerReturn.notFound.toInt) broker
  | createFailure {config : NetworkConfig} (unregistered : broker.registered.lookup key = none)
      (room : ctx.networks.length < maxPeerNetworks)
      (configured : env.networks.find? (·.name = name) = some config) (bad : calls.creates config = false) :
      AcquireEffect env broker peer ctx name key calls error
        (none, VmnetBrokerReturn.createFailure.toInt) broker

section Run

variable {env : Environment Key} {broker : Broker Key} {peer : Connection} {ctx : BrokerContext}
  {network : Address} {value : Network} {calls : Calls} {error : Int32} {name : CString} {key : Key}
  {serialization : Object}

/-- Attaching a peer ends with the retained serialization. -/
theorem run_acquireRegistered_added (coherent : Coherent env broker)
    (found : broker.peers.lookup peer = some ctx) (unowned : network ∉ ctx.networks)
    (room : ctx.networks.length < maxPeerNetworks) (live : broker.heap.lookup network = some value)
    (stored : value.serialization = some serialization) :
    (acquireRegistered peer network error).run broker =
      .ok ((some serialization, error), (broker.attach peer ctx network value).handOut (some serialization)) := by
  have owned : ∀ timer ∈ value.idleTimer, timer ∈ broker.objects :=
    fun timer armed => coherent.timer_owned live armed
  have cancelled := run_cancelRemoveLater { broker with
      peers := broker.peers.insert peer { networks := ctx.networks ++ [network] }
      heap := broker.heap.insert network { value with peers := value.peers + 1 } }
    (AList.lookup_insert _) owned
  simp only [acquireRegistered, StateT.run_bind, run_updatePeerOwnership_added broker found unowned room live,
    ok_bind, cancelled]
  cases armed : value.idleTimer with
  | none =>
    rw [run_load (AList.lookup_insert _)]
    simp [stored, Broker.attach, Broker.handOut, armed]
  | some timer =>
    rw [run_load (AList.lookup_insert _)]
    simp [stored, Broker.attach, Broker.handOut, armed, AList.insert_insert]

/-- An owned network has peers, so there is no timer to cancel. -/
theorem run_acquireRegistered_owned (coherent : Coherent env broker) (timed : broker.Timed)
    (found : broker.peers.lookup peer = some ctx) (member : network ∈ ctx.networks)
    (live : broker.heap.lookup network = some value) (stored : value.serialization = some serialization) :
    (acquireRegistered peer network error).run broker =
      .ok ((some serialization, error), broker.handOut (some serialization)) := by
  have positive := owners_pos found member
  have counted := coherent.counted network value live
  have unarmed : value.idleTimer = none := by
    rw [← Option.not_isSome_iff_eq_none, timed network value live]
    omega
  have cancelled := run_cancelRemoveLater broker live (by simp [unarmed])
  simp only [unarmed] at cancelled
  simp [acquireRegistered, run_updatePeerOwnership_owned broker found member, cancelled, run_load live,
    stored, Broker.handOut]

omit [DecidableEq Key] in
theorem run_acquireRegistered_full (found : broker.peers.lookup peer = some ctx)
    (unowned : network ∉ ctx.networks) (full : maxPeerNetworks ≤ ctx.networks.length) :
    (acquireRegistered peer network error).run broker =
      .ok ((none, VmnetBrokerReturn.internalError.toInt), broker) := by
  simp [acquireRegistered, run_updatePeerOwnership_full broker found unowned full]

theorem Coherent.advance (coherent : Coherent env broker) {later : ℕ} (grows : broker.nextObject ≤ later) :
    Coherent env (broker.advance later) :=
  coherent.congr rfl rfl rfl rfl rfl rfl grows

/-- The lookup that every acquire starts with. -/
private theorem run_acquireNetwork (created : env.createWithCString name = some key) :
    (acquireNetwork env peer name calls error).run broker =
      (match broker.registered.lookup key with
        | some network => acquireRegistered peer network error
        | none => acquireUnregistered env peer name calls error).run
          (broker.advance (broker.nextObject + 1)) := by
  have looked := run_registryGet { broker with registry := some broker.registered } created rfl
  simp only [acquireNetwork, StateT.run_bind, initRegistry, StateT.run_modify, pure_eq_ok, ok_bind, looked]
  cases broker.registered.lookup key <;> rfl

/-- Creation ends with a registered network whose first peer is the caller. -/
private theorem run_acquireUnregistered_created (error : Int32) (coherent : Coherent env broker)
    (found : broker.peers.lookup peer = some ctx) (room : ctx.networks.length < maxPeerNetworks)
    (created : env.createWithCString name = some key) {registry : AList fun _ : Key => Address}
    (initialized : broker.registry = some registry) (unregistered : registry.lookup key = none)
    {config : NetworkConfig} (configured : env.networks.find? (·.name = name) = some config)
    (good : calls.creates config = true) (allocated : calls.calloc = some network)
    (absent : network ∉ broker.heap) :
    ∃ ref serialization later, (ref.kind = .network ∧ serialization.kind = .serialization) ∧
      (broker.nextObject ≤ ref.id ∧ ref.id < later) ∧
      (broker.nextObject ≤ serialization.id ∧ serialization.id < later) ∧
      (acquireUnregistered env peer name calls error).run broker = .ok ((some serialization, error),
        (((broker.enroll key network name ref serialization later).attach peer ctx network
          { name := some name, ref := some ref, serialization := some serialization }).advance
            later).handOut (some serialization)) := by
  obtain ⟨configures, builds⟩ : calls.configures config = true ∧ calls.builds = true := by
    simpa [Calls.creates] using good
  refine ⟨⟨.network, broker.nextObject + 1⟩, ⟨.serialization, broker.nextObject + 2⟩,
    broker.nextObject + 4, ⟨rfl, rfl⟩, by simp, by simp, ?_⟩
  have registeredEq : broker.registered = registry := by simp [Broker.registered, initialized]
  have erased : (⟨.serialization, broker.nextObject + 2⟩ ::ₘ ⟨.network, broker.nextObject + 1⟩ ::ₘ
      ⟨.configuration, broker.nextObject⟩ ::ₘ broker.objects : Multiset Object).erase
        ⟨.configuration, broker.nextObject⟩ =
      ⟨.serialization, broker.nextObject + 2⟩ ::ₘ ⟨.network, broker.nextObject + 1⟩ ::ₘ broker.objects := by
    rw [Multiset.erase_cons_tail _ (by simp), Multiset.erase_cons_tail _ (by simp), Multiset.erase_cons_head]
  have enrolled : Coherent env (broker.enroll key network name ⟨.network, broker.nextObject + 1⟩
      ⟨.serialization, broker.nextObject + 2⟩ (broker.nextObject + 4)) :=
    coherent.register absent (registeredEq ▸ unregistered) created ⟨rfl, rfl⟩ (by simp) (by simp)
  have attached : (acquireRegistered peer network error).run _ = _ := run_acquireRegistered_added enrolled found
    (fun member => absent (coherent.held_live peer ctx found network member)) room
    (AList.lookup_insert _) rfl
  have registered : (registrySet env name network).run _ = _ := run_registrySet { broker with
      heap := broker.heap.insert network
        { name := some name, ref := some ⟨.network, broker.nextObject + 1⟩,
          serialization := some ⟨.serialization, broker.nextObject + 2⟩ }
      objects := ⟨.serialization, broker.nextObject + 2⟩ ::ₘ ⟨.network, broker.nextObject + 1⟩ ::ₘ
        broker.objects
      nextObject := broker.nextObject + 3 } created initialized unregistered
  simp only [acquireUnregistered, StateT.run_bind, run_context found, ok_bind,
    canAddNetworkToPeer_room room,
    run_createNetworkConfiguration_ok error configured configures, run_createNetwork_ok _ allocated builds]
  rw [run_release (by simp)]
  simp only [ok_bind, erased]
  rw [registered, ← registeredEq]
  exact attached

/-- A creation step that fails leaves only used identities behind. -/
private theorem run_acquireUnregistered_failed (env : Environment Key) (broker : Broker Key) (error : Int32)
    (found : broker.peers.lookup peer = some ctx)
    (room : ctx.networks.length < maxPeerNetworks) {config : NetworkConfig}
    (configured : env.networks.find? (·.name = name) = some config) (bad : calls.creates config = false)
    (fresh : ∀ network ∈ calls.calloc, network ∉ broker.heap) :
    ∃ later, broker.nextObject ≤ later ∧ (acquireUnregistered env peer name calls error).run broker =
      .ok ((none, VmnetBrokerReturn.createFailure.toInt), { broker with nextObject := later }) := by
  cases configures : calls.configures config with
  | false =>
    obtain ⟨later, grows, failed⟩ :=
      run_createNetworkConfiguration_error broker error configured configures
    refine ⟨later, grows, ?_⟩
    simp only [acquireUnregistered, StateT.run_bind, run_context found, ok_bind,
      canAddNetworkToPeer_room room, failed]
    rfl
  | true =>
    have builds : calls.builds = false := by simpa [Calls.creates, configures] using bad
    obtain ⟨later, grows, failed⟩ := run_createNetwork_error { broker with
      objects := ⟨.configuration, broker.nextObject⟩ ::ₘ broker.objects
      nextObject := broker.nextObject + 1 } name error fresh builds
    refine ⟨later, (Nat.le_succ _).trans grows, ?_⟩
    simp only [acquireUnregistered, StateT.run_bind, run_context found, ok_bind,
      canAddNetworkToPeer_room room, run_createNetworkConfiguration_ok error configured configures, failed]
    rw [run_release (by simp)]
    simp

/-- Every acquire of a name with a key completes with one of the listed effects. -/
theorem acquireNetwork_effect (error : Int32) (coherent : Coherent env broker) (timed : broker.Timed)
    (found : broker.peers.lookup peer = some ctx) (created : env.createWithCString name = some key)
    (fresh : ∀ network ∈ calls.calloc, network ∉ broker.heap) :
    ∃ result core later, core.nextObject ≤ later ∧
      (acquireNetwork env peer name calls error).run broker =
        .ok (result, (core.advance later).handOut result.1) ∧
      AcquireEffect env broker peer ctx name key calls error result core := by
  have grows : broker.nextObject ≤ broker.nextObject + 1 := Nat.le_succ _
  have advanced := coherent.advance grows
  have stillFound : (broker.advance (broker.nextObject + 1)).peers.lookup peer = some ctx := found
  rw [run_acquireNetwork created]
  cases registered : broker.registered.lookup key with
  | some network =>
    obtain ⟨value, _, live, _⟩ := coherent.registered_named key network registered
    obtain ⟨_, serialization, _, stored, _⟩ := coherent.complete network value live
    by_cases member : network ∈ ctx.networks
    · exact ⟨_, _, _, grows, run_acquireRegistered_owned advanced timed found member live stored,
        .owned registered member live stored⟩
    · by_cases room : ctx.networks.length < maxPeerNetworks
      · exact ⟨_, broker.attach peer ctx network value, _, grows,
          run_acquireRegistered_added advanced found member room live stored,
          .shared registered member room live stored⟩
      · refine ⟨_, broker, _, grows, run_acquireRegistered_full stillFound member (not_lt.mp room),
          .full ?_ (not_lt.mp room)⟩
        intro other lookup
        rwa [Option.some.inj (registered.symm.trans lookup)] at member
  | none =>
    by_cases room : ctx.networks.length < maxPeerNetworks
    · by_cases configured : env.Configured name
      · obtain ⟨config, lookup⟩ := configured.find
        cases good : calls.creates config with
        | true =>
          obtain ⟨network, allocated⟩ : ∃ network, calls.calloc = some network := by
            simp only [Calls.creates, Calls.builds, Bool.and_eq_true] at good
            exact Option.isSome_iff_exists.mp good.2.1.1.1
          have absent := fresh network allocated
          obtain ⟨ref, serialization, later, kinds, refNew, serializationNew, ran⟩ :=
            run_acquireUnregistered_created error advanced found room created rfl registered lookup
              good allocated absent
          have refOld : broker.nextObject ≤ ref.id ∧ ref.id < later :=
            ⟨grows.trans refNew.1, refNew.2⟩
          have serializationOld : broker.nextObject ≤ serialization.id ∧ serialization.id < later :=
            ⟨grows.trans serializationNew.1, serializationNew.2⟩
          exact ⟨_, _, later, le_rfl, ran,
            .created registered room lookup good allocated absent kinds refOld serializationOld⟩
        | false =>
          obtain ⟨later, further, ran⟩ := run_acquireUnregistered_failed env
            (broker.advance (broker.nextObject + 1)) error found room lookup good fresh
          exact ⟨_, broker, later, grows.trans further, ran, .createFailure registered room lookup good⟩
      · refine ⟨_, broker, _, grows, ?_, .notFound registered room configured⟩
        simp only [acquireUnregistered, StateT.run_bind, run_context stillFound, ok_bind,
          canAddNetworkToPeer_room room, run_createNetworkConfiguration_notFound error configured]
        rfl
    · refine ⟨_, broker, _, grows, ?_, .full (by simp [registered]) (not_lt.mp room)⟩
      simp only [acquireUnregistered, StateT.run_bind, run_context stillFound, ok_bind,
        canAddNetworkToPeer_full (not_lt.mp room)]
      rfl

end Run

section Preservation

variable {env : Environment Key} {broker core : Broker Key} {peer : Connection} {ctx : BrokerContext}
  {network : Address} {value : Network} {calls : Calls} {error : Int32} {name : CString} {key : Key}
  {result : Option Object × Int32}

/-- Attaching is a recount followed by the cancellation of the timer, if there is one. -/
theorem Coherent.attach (coherent : Coherent env broker) (found : broker.peers.lookup peer = some ctx)
    (unowned : network ∉ ctx.networks) (room : ctx.networks.length < maxPeerNetworks)
    (live : broker.heap.lookup network = some value) :
    Coherent env (broker.attach peer ctx network value) := by
  have nodup : (ctx.networks ++ [network]).Nodup :=
    List.nodup_append.mpr ⟨coherent.held_nodup peer ctx found, List.nodup_singleton _, by
      rintro other member _ (_ | _)
      · rintro rfl; exact unowned member
      · contradiction⟩
  have allocated : ∀ other ∈ ctx.networks ++ [network], other ∈ broker.heap := by
    intro other member
    rcases List.mem_append.mp member with held | new
    · exact coherent.held_live peer ctx found other held
    · rw [List.mem_singleton.mp new]
      exact AList.mem_of_lookup live
  have counted : Coherent env { broker with
      peers := broker.peers.insert peer { networks := ctx.networks ++ [network] }
      heap := broker.heap.insert network { value with peers := value.peers + 1 } } := by
    apply coherent.recount found live nodup _ allocated
    · intro other different
      simp [different]
    · simp [unowned]
    · rw [List.length_append]
      exact room
  cases armed : value.idleTimer with
  | none => simpa [Broker.attach, armed] using counted
  | some timer =>
    have cancelled := counted.disarm (AList.lookup_insert _) armed
    simpa [Broker.attach, armed, AList.insert_insert] using cancelled

omit [DecidableEq Key] in
/-- An attached network has a peer and no timer. -/
theorem Broker.timed_attach (peer : Connection) (ctx : BrokerContext) (count : 0 ≤ value.peers)
    (elsewhere : ∀ other stored, other ≠ network → broker.heap.lookup other = some stored →
      (stored.idleTimer.isSome = true ↔ stored.peers = 0)) :
    (broker.attach peer ctx network value).Timed := by
  intro other stored lookup
  simp only [Broker.attach, AList.lookup_insert_eq] at lookup
  split at lookup
  · obtain rfl := Option.some.inj lookup
    simp
    omega
  · next different => exact elsewhere other stored different lookup

/-- Every effect keeps registry, blocks, contexts, timers and references in step. -/
theorem AcquireEffect.coherent (effect : AcquireEffect env broker peer ctx name key calls error result core)
    (coherent : Coherent env broker) (found : broker.peers.lookup peer = some ctx)
    (created : env.createWithCString name = some key) : Coherent env core := by
  cases effect with
  | shared registered unowned room live stored => exact coherent.attach found unowned room live
  | created unregistered room configured good allocated absent kinds refNew serializationNew =>
    have enrolled := coherent.register absent unregistered created kinds refNew serializationNew
    refine enrolled.attach found ?_ room (AList.lookup_insert _)
    exact fun member => absent (coherent.held_live peer ctx found _ member)
  | owned | full | notFound | createFailure => exact coherent

/-- Every effect leaves a timer exactly on the networks without peers. -/
theorem AcquireEffect.timed (effect : AcquireEffect env broker peer ctx name key calls error result core)
    (coherent : Coherent env broker) (timed : broker.Timed) : core.Timed := by
  cases effect with
  | shared registered unowned room live stored =>
    refine Broker.timed_attach peer ctx ?_ fun other stored _ lookup => timed other stored lookup
    rw [coherent.counted _ _ live]
    exact Int.natCast_nonneg _
  | created unregistered room configured good allocated absent kinds refNew serializationNew =>
    refine Broker.timed_attach peer ctx le_rfl ?_
    intro other stored old lookup
    exact timed other stored ((AList.lookup_insert_ne old).symm.trans lookup)
  | owned | full | notFound | createFailure => exact timed

end Preservation

end VmnetBroker
