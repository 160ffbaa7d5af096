import VmnetBroker.Model.Network
import VmnetBroker.Machine.Table
import Mathlib.Algebra.Order.Group.Multiset

/-! # Coherence of registry, blocks, contexts, timers and references

`Coherent` is what every single update of the network layer preserves: it holds inside a handler,
between any two statements that complete one update. Whether a network without peers has its
timer armed is not part of it, because a new network is registered before its first peer is
counted and a count drops before the timer is armed.
-/

namespace VmnetBroker

variable {Key : Type}

/-- The references that a network holds. -/
def Network.references (value : Network) : Multiset Object :=
  value.ref.toList ++ value.serialization.toList ++ value.idleTimer.toList

/-- Arming the timer of a network adds one reference. -/
theorem Network.references_armed (value : Network) (unarmed : value.idleTimer = none) (timer : Object) :
    { value with idleTimer := some timer }.references = timer ::ₘ value.references := by
  simp only [Network.references, unarmed, Option.toList_some, Option.toList_none, List.append_nil]
  exact Multiset.coe_eq_coe.mpr (List.perm_append_comm)

namespace Broker

/-- The number of live peers whose array contains the network. -/
def owners (broker : Broker Key) (network : Address) : ℕ :=
  broker.peers.entries.countP fun entry => network ∈ entry.2.networks

/-- The references that the fields of the state account for. -/
def accounted (broker : Broker Key) : Multiset Object :=
  broker.heap.total Network.references + broker.idleTimer.toList

end Broker

section Owners

variable {broker : Broker Key} {peer : Connection} {ctx : BrokerContext} {network : Address}

private theorem owners_eq_total (broker : Broker Key) (network : Address) : broker.owners network =
    broker.peers.total fun ctx => if network ∈ ctx.networks then 1 else 0 := by
  unfold Broker.owners AList.total
  rw [List.countP_eq_sum]
  simp only [decide_eq_true_eq]

/-- Replacing one context changes a count only through that context. -/
theorem owners_insert (found : broker.peers.lookup peer = some ctx) (new : BrokerContext)
    (network : Address) :
    ({ broker with peers := broker.peers.insert peer new }.owners network : ℕ) +
        (if network ∈ ctx.networks then 1 else 0) =
      broker.owners network + if network ∈ new.networks then 1 else 0 := by
  simp only [owners_eq_total]
  exact AList.total_insert_of_lookup _ found new

/-- A peer without networks does not change any count by arriving. -/
theorem owners_insert_new (absent : peer ∉ broker.peers) (network : Address) :
    { broker with peers := broker.peers.insert peer {} }.owners network = broker.owners network := by
  simp only [owners_eq_total]
  rw [AList.total_insert_of_notMem _ absent]
  simp

/-- A peer without networks does not change any count by leaving. -/
theorem owners_erase_empty (found : broker.peers.lookup peer = some {}) (network : Address) :
    { broker with peers := broker.peers.erase peer }.owners network = broker.owners network := by
  simp only [owners_eq_total]
  rw [AList.total_of_lookup _ found]
  simp

theorem owners_pos (found : broker.peers.lookup peer = some ctx) (member : network ∈ ctx.networks) :
    0 < broker.owners network := by
  apply List.countP_pos_iff.mpr
  exact ⟨⟨peer, ctx⟩, List.of_mem_dlookup (Option.mem_def.mpr found), by simpa using member⟩

theorem owners_eq_zero_iff : broker.owners network = 0 ↔
    ∀ peer ctx, broker.peers.lookup peer = some ctx → network ∉ ctx.networks := by
  constructor
  · intro zero peer ctx found member
    have := owners_pos found member
    omega
  · intro absent
    apply List.countP_eq_zero.mpr
    rintro ⟨peer, ctx⟩ member
    simpa using absent peer ctx (List.mem_dlookup broker.peers.nodupKeys member)

theorem owners_le_length : broker.owners network ≤ broker.peers.entries.length := List.countP_le_length

end Owners

variable [DecidableEq Key]

structure Coherent (env : Environment Key) (broker : Broker Key) : Prop where
  held_nodup : ∀ peer ctx, broker.peers.lookup peer = some ctx → ctx.networks.Nodup
  held_bounded : ∀ peer ctx, broker.peers.lookup peer = some ctx → ctx.networks.length ≤ maxPeerNetworks
  held_live : ∀ peer ctx, broker.peers.lookup peer = some ctx →
    ∀ network ∈ ctx.networks, network ∈ broker.heap
  registered_named : ∀ key network, broker.registered.lookup key = some network →
    ∃ value name, broker.heap.lookup network = some value ∧ value.name = some name ∧
      env.createWithCString name = some key
  live_registered : ∀ network ∈ broker.heap, ∃ key, broker.registered.lookup key = some network
  complete : ∀ network value, broker.heap.lookup network = some value →
    ∃ ref serialization, value.ref = some ref ∧ value.serialization = some serialization ∧
      ref.kind = .network ∧ serialization.kind = .serialization
  counted : ∀ network value, broker.heap.lookup network = some value → value.peers = broker.owners network
  network_timer : ∀ source network, broker.sources.lookup source = some (.removeNetwork network) ↔
    ∃ value, broker.heap.lookup network = some value ∧ value.idleTimer = some source
  broker_timer : ∀ source, broker.sources.lookup source = some .shutdown ↔ broker.idleTimer = some source
  source_kind : ∀ source ∈ broker.sources, source.kind = .source
  ledger : broker.objects = broker.accounted
  distinct : broker.objects.Nodup
  fresh : ∀ object ∈ broker.objects, object.id < broker.nextObject

namespace Coherent

variable {env : Environment Key} {broker next : Broker Key} {peer : Connection} {ctx new : BrokerContext}
  {network : Address} {value : Network}

/-- Bookkeeping outside the network layer does not matter. -/
theorem congr (coherent : Coherent env broker) (registered : next.registered = broker.registered)
    (heap : next.heap = broker.heap) (peers : next.peers = broker.peers)
    (sources : next.sources = broker.sources) (idleTimer : next.idleTimer = broker.idleTimer)
    (objects : next.objects = broker.objects) (later : broker.nextObject ≤ next.nextObject) :
    Coherent env next where
  held_nodup := peers ▸ coherent.held_nodup
  held_bounded := peers ▸ coherent.held_bounded
  held_live := peers ▸ heap ▸ coherent.held_live
  registered_named := registered ▸ heap ▸ coherent.registered_named
  live_registered := registered ▸ heap ▸ coherent.live_registered
  complete := heap ▸ coherent.complete
  counted := by
    simp only [Broker.owners, heap, peers]
    exact coherent.counted
  network_timer := sources ▸ heap ▸ coherent.network_timer
  broker_timer := sources ▸ idleTimer ▸ coherent.broker_timer
  source_kind := sources ▸ coherent.source_kind
  ledger := by
    simp only [Broker.accounted, heap, idleTimer, objects]
    exact coherent.ledger
  distinct := objects ▸ coherent.distinct
  fresh := fun object member => (coherent.fresh object (objects ▸ member)).trans_le later

/-- A registered address is the address of a block. -/
theorem live_of_registered (coherent : Coherent env broker) {key : Key}
    (found : broker.registered.lookup key = some network) : network ∈ broker.heap := by
  obtain ⟨value, _, live, _⟩ := coherent.registered_named key network found
  exact AList.mem_of_lookup live

/-- A block is registered under one key only. -/
theorem key_unique (coherent : Coherent env broker) {first second : Key}
    (left : broker.registered.lookup first = some network)
    (right : broker.registered.lookup second = some network) : first = second := by
  obtain ⟨_, name, live, named, created⟩ := coherent.registered_named first network left
  obtain ⟨_, other, otherLive, otherNamed, otherCreated⟩ := coherent.registered_named second network right
  obtain rfl := Option.some.inj (live.symm.trans otherLive)
  obtain rfl := Option.some.inj (named.symm.trans otherNamed)
  exact Option.some.inj (created.symm.trans otherCreated)

/-- No peer holds an address that is not allocated, so a new block has no owner. -/
theorem owners_of_absent (coherent : Coherent env broker) (absent : network ∉ broker.heap) :
    broker.owners network = 0 :=
  owners_eq_zero_iff.mpr fun peer ctx found member => absent (coherent.held_live peer ctx found network member)

/-- The ledger covers the references of every block. -/
theorem references_split (coherent : Coherent env broker) (live : broker.heap.lookup network = some value) :
    ∃ rest, broker.objects = value.references + rest := by
  rw [coherent.ledger, Broker.accounted, AList.total_of_lookup _ live, add_assoc]
  exact ⟨_, rfl⟩

theorem timer_owned (coherent : Coherent env broker) (live : broker.heap.lookup network = some value)
    {timer : Object} (armed : value.idleTimer = some timer) : timer ∈ broker.objects := by
  obtain ⟨rest, split⟩ := coherent.references_split live
  rw [split]
  simp [Network.references, armed]

/-- An armed source is a referenced object. -/
theorem source_owned (coherent : Coherent env broker) {source : Object} (armed : source ∈ broker.sources) :
    source ∈ broker.objects := by
  obtain ⟨handler, found⟩ := AList.exists_lookup armed
  cases handler with
  | removeNetwork network =>
    obtain ⟨value, live, timer⟩ := (coherent.network_timer source network).mp found
    exact coherent.timer_owned live timer
  | shutdown =>
    rw [coherent.ledger, Broker.accounted, (coherent.broker_timer source).mp found]
    simp

/-- A source created now is a new key of the source table. -/
theorem source_fresh (coherent : Coherent env broker) : (⟨.source, broker.nextObject⟩ : Object) ∉ broker.sources := by
  intro armed
  exact (coherent.fresh _ (coherent.source_owned armed)).false

/-- Rewrite a live block in place. The name and the references of the network stay; its count and
its timer must fit the rest of the new state. -/
private theorem rewrite (coherent : Coherent env broker) (live : broker.heap.lookup network = some value)
    (written : Network) (name : written.name = value.name) (ref : written.ref = value.ref)
    (serialization : written.serialization = value.serialization)
    (registered : next.registered = broker.registered)
    (heap : next.heap = broker.heap.insert network written)
    (held : ∀ peer ctx, next.peers.lookup peer = some ctx → ctx.networks.Nodup ∧
      ctx.networks.length ≤ maxPeerNetworks ∧ ∀ other ∈ ctx.networks, other ∈ broker.heap)
    (count : written.peers = next.owners network)
    (counts : ∀ other ≠ network, next.owners other = broker.owners other)
    (network_timer : ∀ source entry, next.sources.lookup source = some (.removeNetwork entry) ↔
      ∃ stored, next.heap.lookup entry = some stored ∧ stored.idleTimer = some source)
    (broker_timer : ∀ source, next.sources.lookup source = some .shutdown ↔ next.idleTimer = some source)
    (source_kind : ∀ source ∈ next.sources, source.kind = .source)
    (ledger : next.objects = next.accounted) (distinct : next.objects.Nodup)
    (fresh : ∀ object ∈ next.objects, object.id < next.nextObject) : Coherent env next where
  held_nodup peer ctx lookup := (held peer ctx lookup).1
  held_bounded peer ctx lookup := (held peer ctx lookup).2.1
  held_live peer ctx lookup entry member := by
    rw [heap, AList.mem_insert]
    exact Or.inr ((held peer ctx lookup).2.2 entry member)
  registered_named key entry lookup := by
    rw [registered] at lookup
    obtain ⟨stored, storedName, entryLive, named, created⟩ := coherent.registered_named key entry lookup
    by_cases same : entry = network
    · subst entry
      obtain rfl := Option.some.inj (live.symm.trans entryLive)
      exact ⟨written, storedName, by rw [heap, AList.lookup_insert], name.trans named, created⟩
    · exact ⟨stored, storedName, by rw [heap, AList.lookup_insert_ne same, entryLive], named, created⟩
  live_registered entry member := by
    rw [heap, AList.mem_insert] at member
    rw [registered]
    apply coherent.live_registered
    rcases member with rfl | member
    · exact AList.mem_of_lookup live
    · exact member
  complete entry stored lookup := by
    rw [heap, AList.lookup_insert_eq] at lookup
    split at lookup
    · cases lookup
      rw [ref, serialization]
      exact coherent.complete network value live
    · exact coherent.complete entry stored lookup
  counted entry stored lookup := by
    rw [heap, AList.lookup_insert_eq] at lookup
    split at lookup
    · next same => cases lookup; rw [same]; exact count
    · next different => rw [counts entry different]; exact coherent.counted entry stored lookup
  network_timer := network_timer
  broker_timer := broker_timer
  source_kind := source_kind
  ledger := ledger
  distinct := distinct
  fresh := fresh

private theorem held (coherent : Coherent env broker) (found : broker.peers.lookup peer = some ctx) :
    ctx.networks.Nodup ∧ ctx.networks.length ≤ maxPeerNetworks ∧
      ∀ other ∈ ctx.networks, other ∈ broker.heap :=
  ⟨coherent.held_nodup peer ctx found, coherent.held_bounded peer ctx found,
    coherent.held_live peer ctx found⟩

/-- Move a peer into or out of the ownership of one network, with the matching count. -/
theorem recount (coherent : Coherent env broker) (found : broker.peers.lookup peer = some ctx)
    (live : broker.heap.lookup network = some value) (nodup : new.networks.Nodup)
    (bounded : new.networks.length ≤ maxPeerNetworks)
    (allocated : ∀ other ∈ new.networks, other ∈ broker.heap)
    (others : ∀ other ≠ network, other ∈ new.networks ↔ other ∈ ctx.networks) {count : ℤ}
    (balance : count + (if network ∈ ctx.networks then 1 else 0) =
      value.peers + if network ∈ new.networks then 1 else 0) :
    Coherent env { broker with
      peers := broker.peers.insert peer new
      heap := broker.heap.insert network { value with peers := count } } := by
  refine coherent.rewrite live { value with peers := count } rfl rfl rfl rfl rfl
    ?_ ?_ ?_ ?_ ?_ coherent.source_kind ?_ ?_ ?_
  · intro other otherCtx lookup
    rw [AList.lookup_insert_eq] at lookup
    split at lookup
    · cases lookup; exact ⟨nodup, bounded, allocated⟩
    · exact coherent.held lookup
  · have change := owners_insert found new network
    have before := coherent.counted network value live
    change count = (({ broker with peers := broker.peers.insert peer new }.owners network : ℕ) : ℤ)
    split_ifs at change balance <;> omega
  · intro other different
    have change := owners_insert found new other
    simp only [others other different] at change
    change { broker with peers := broker.peers.insert peer new }.owners other = _
    omega
  · intro source entry
    rw [coherent.network_timer, AList.lookup_insert_eq]
    split
    · next same => subst entry; simp [live]
    · rfl
  · exact coherent.broker_timer
  · have exchanged := AList.total_insert_of_lookup Network.references live { value with peers := count }
    have total := add_right_cancel (exchanged.trans (by rfl : _ = _ + value.references))
    change broker.objects = _ + _
    rw [total]
    exact coherent.ledger
  · exact coherent.distinct
  · exact coherent.fresh

/-- Arm the idle timer of a network that has none. -/
theorem arm (coherent : Coherent env broker) (live : broker.heap.lookup network = some value)
    (unarmed : value.idleTimer = none) :
    Coherent env { broker with
      heap := broker.heap.insert network { value with idleTimer := some ⟨.source, broker.nextObject⟩ }
      sources := broker.sources.insert ⟨.source, broker.nextObject⟩ (.removeNetwork network)
      objects := ⟨.source, broker.nextObject⟩ ::ₘ broker.objects
      nextObject := broker.nextObject + 1 } := by
  have unused : broker.sources.lookup ⟨.source, broker.nextObject⟩ = none :=
    AList.lookup_eq_none.mpr coherent.source_fresh
  have unowned : (⟨.source, broker.nextObject⟩ : Object) ∉ broker.objects :=
    fun member => (coherent.fresh _ member).false
  refine coherent.rewrite live { value with idleTimer := some ⟨.source, broker.nextObject⟩ }
    rfl rfl rfl rfl rfl ?_ ?_ ?_ ?_ ?_ ?_ ?_ ?_ ?_
  · exact fun _ _ lookup => coherent.held lookup
  · exact coherent.counted network value live
  · exact fun _ _ => rfl
  · intro source entry
    have before := coherent.network_timer source entry
    rw [AList.lookup_insert_eq, AList.lookup_insert_eq]
    split_ifs with isNew same same
    · subst isNew same; simp
    · rw [isNew, unused] at before
      subst isNew
      simpa [Ne.symm same] using before
    · subst same
      rw [before]
      simp [live, unarmed, Ne.symm isNew]
    · exact before
  · intro source
    rw [AList.lookup_insert_eq]
    split
    · next isNew =>
      have before := coherent.broker_timer source
      rw [isNew, unused] at before
      simpa [isNew] using before
    · exact coherent.broker_timer source
  · intro source member
    rcases (AList.mem_insert _).mp member with rfl | old
    · rfl
    · exact coherent.source_kind source old
  · have exchanged := AList.total_insert_of_lookup Network.references live
      { value with idleTimer := some ⟨.source, broker.nextObject⟩ }
    rw [Network.references_armed value unarmed, Multiset.add_cons, ← Multiset.cons_add] at exchanged
    rw [Broker.accounted, add_right_cancel exchanged, Multiset.cons_add]
    exact congrArg _ coherent.ledger
  · exact Multiset.nodup_cons.mpr ⟨unowned, coherent.distinct⟩
  · intro object member
    rcases Multiset.mem_cons.mp member with rfl | old
    · exact Nat.lt_succ_self _
    · exact (coherent.fresh object old).trans (Nat.lt_succ_self _)

/-- Cancel and release the idle timer of a network. -/
theorem disarm (coherent : Coherent env broker) (live : broker.heap.lookup network = some value)
    {timer : Object} (armed : value.idleTimer = some timer) :
    Coherent env { broker with
      heap := broker.heap.insert network { value with idleTimer := none }
      sources := broker.sources.erase timer
      objects := broker.objects.erase timer } := by
  have source : broker.sources.lookup timer = some (.removeNetwork network) :=
    (coherent.network_timer timer network).mpr ⟨value, live, armed⟩
  refine coherent.rewrite live { value with idleTimer := none } rfl rfl rfl rfl rfl
    ?_ ?_ ?_ ?_ ?_ ?_ ?_ ?_ ?_
  · exact fun _ _ lookup => coherent.held lookup
  · exact coherent.counted network value live
  · exact fun _ _ => rfl
  · intro other entry
    have before := coherent.network_timer other entry
    rw [AList.lookup_erase_eq, AList.lookup_insert_eq]
    split_ifs with cancelled same same
    · simp
    · subst cancelled
      have unrelated : ¬ some (Handler.removeNetwork network) = some (.removeNetwork entry) := by
        simpa using Ne.symm same
      rw [source] at before
      simpa [unrelated] using before
    · subst same
      rw [before]
      simp [live, armed, Ne.symm cancelled]
    · exact before
  · intro other
    rw [AList.lookup_erase_eq]
    split
    · next cancelled =>
      have before := coherent.broker_timer other
      rw [cancelled, source] at before
      simpa [cancelled] using before
    · exact coherent.broker_timer other
  · exact fun other member => coherent.source_kind other (AList.mem_erase.mp member).2
  · have exchanged := AList.total_insert_of_lookup Network.references live { value with idleTimer := none }
    have split : value.references = timer ::ₘ { value with idleTimer := none }.references := by
      rw [← Network.references_armed { value with idleTimer := none } rfl, ← armed]
    rw [split, Multiset.add_cons, ← Multiset.cons_add] at exchanged
    have total := add_right_cancel exchanged
    change broker.objects.erase timer = _ + _
    rw [coherent.ledger, Broker.accounted, ← total, Multiset.cons_add, Multiset.erase_cons_head]
  · exact coherent.distinct.erase timer
  · exact fun object member => coherent.fresh object (Multiset.mem_of_mem_erase member)

/-- Register a complete new network that nobody owns yet. -/
theorem register (coherent : Coherent env broker) {key : Key} {name : CString} {ref serialization : Object}
    {later : ℕ} (absent : network ∉ broker.heap) (unused : broker.registered.lookup key = none)
    (created : env.createWithCString name = some key)
    (kinds : ref.kind = .network ∧ serialization.kind = .serialization)
    (refNew : broker.nextObject ≤ ref.id ∧ ref.id < later)
    (serializationNew : broker.nextObject ≤ serialization.id ∧ serialization.id < later) :
    Coherent env { broker with
      registry := some (broker.registered.insert key network)
      heap := broker.heap.insert network
        { name := some name, ref := some ref, serialization := some serialization }
      objects := serialization ::ₘ ref ::ₘ broker.objects
      nextObject := later } where
  held_nodup := coherent.held_nodup
  held_bounded := coherent.held_bounded
  held_live peer ctx lookup entry member :=
    (AList.mem_insert _).mpr (Or.inr (coherent.held_live peer ctx lookup entry member))
  registered_named other entry lookup := by
    change (broker.registered.insert key network).lookup other = some entry at lookup
    rw [AList.lookup_insert_eq] at lookup
    split at lookup
    · next same =>
      cases lookup
      exact ⟨_, name, AList.lookup_insert _, rfl, same ▸ created⟩
    · obtain ⟨stored, storedName, live, named, keyed⟩ := coherent.registered_named other entry lookup
      have old : entry ≠ network := by
        rintro rfl
        exact absent (AList.mem_of_lookup live)
      exact ⟨stored, storedName, (AList.lookup_insert_ne old).trans live, named, keyed⟩
  live_registered entry member := by
    change ∃ other, (broker.registered.insert key network).lookup other = some entry
    rcases (AList.mem_insert _).mp member with rfl | old
    · exact ⟨key, AList.lookup_insert _⟩
    · obtain ⟨other, found⟩ := coherent.live_registered entry old
      have notNew : other ≠ key := by
        rintro rfl
        rw [unused] at found
        contradiction
      exact ⟨other, (AList.lookup_insert_ne notNew).trans found⟩
  complete entry stored lookup := by
    rw [AList.lookup_insert_eq] at lookup
    split at lookup
    · cases lookup; exact ⟨ref, serialization, rfl, rfl, kinds⟩
    · exact coherent.complete entry stored lookup
  counted entry stored lookup := by
    rw [AList.lookup_insert_eq] at lookup
    split at lookup
    · next same =>
      cases lookup
      rw [same]
      exact (congrArg Nat.cast (coherent.owners_of_absent absent)).symm
    · exact coherent.counted entry stored lookup
  network_timer source entry := by
    rw [coherent.network_timer, AList.lookup_insert_eq]
    split
    · next same =>
      subst entry
      simp [AList.lookup_eq_none.mpr absent]
    · rfl
  broker_timer := coherent.broker_timer
  source_kind := coherent.source_kind
  ledger := by
    rw [Broker.accounted, AList.total_insert_of_notMem _ absent, add_assoc]
    change _ = (ref ::ₘ serialization ::ₘ 0) + broker.accounted
    rw [Multiset.cons_add, Multiset.cons_add, zero_add, ← coherent.ledger]
    exact Multiset.cons_swap ..
  distinct := by
    have refUnowned : ref ∉ broker.objects := fun member => by
      have := coherent.fresh ref member
      omega
    have serializationUnowned : serialization ∉ broker.objects := fun member => by
      have := coherent.fresh serialization member
      omega
    have different : serialization ≠ ref := by
      rintro rfl
      exact ObjectKind.noConfusion (kinds.1.symm.trans kinds.2)
    simp [coherent.distinct, refUnowned, serializationUnowned, different]
  fresh object member := by
    rcases Multiset.mem_cons.mp member with rfl | member
    · exact serializationNew.2
    · rcases Multiset.mem_cons.mp member with rfl | old
      · exact refNew.2
      · have := coherent.fresh object old
        change object.id < later
        omega

/-- Remove an idle network together with everything it holds. -/
theorem remove (coherent : Coherent env broker) {key : Key} {timer : Object} {rest : Multiset Object}
    (found : broker.registered.lookup key = some network) (live : broker.heap.lookup network = some value)
    (unowned : broker.owners network = 0) (armed : value.idleTimer = some timer)
    (split : broker.objects = value.references + rest) :
    Coherent env { broker with
      registry := some (broker.registered.erase key)
      heap := broker.heap.erase network
      sources := broker.sources.erase timer
      objects := rest } where
  held_nodup := coherent.held_nodup
  held_bounded := coherent.held_bounded
  held_live peer ctx lookup entry member := by
    refine AList.mem_erase.mpr ⟨?_, coherent.held_live peer ctx lookup entry member⟩
    rintro rfl
    exact owners_eq_zero_iff.mp unowned peer ctx lookup member
  registered_named other entry lookup := by
    change (broker.registered.erase key).lookup other = some entry at lookup
    rw [AList.lookup_erase_eq] at lookup
    split at lookup
    · contradiction
    · next different =>
      obtain ⟨stored, name, entryLive, named, created⟩ := coherent.registered_named other entry lookup
      have kept : entry ≠ network := by
        rintro rfl
        exact different (coherent.key_unique lookup found)
      exact ⟨stored, name, (AList.lookup_erase_ne kept).trans entryLive, named, created⟩
  live_registered entry member := by
    obtain ⟨kept, old⟩ := AList.mem_erase.mp member
    obtain ⟨other, lookup⟩ := coherent.live_registered entry old
    have different : other ≠ key := by
      rintro rfl
      exact kept (Option.some.inj (lookup.symm.trans found))
    exact ⟨other, (AList.lookup_erase_ne different).trans lookup⟩
  complete entry stored lookup := by
    rw [AList.lookup_erase_eq] at lookup
    split at lookup
    · contradiction
    · exact coherent.complete entry stored lookup
  counted entry stored lookup := by
    rw [AList.lookup_erase_eq] at lookup
    split at lookup
    · contradiction
    · exact coherent.counted entry stored lookup
  network_timer source entry := by
    have before := coherent.network_timer source entry
    have own := (coherent.network_timer timer network).mpr ⟨value, live, armed⟩
    rw [AList.lookup_erase_eq, AList.lookup_erase_eq]
    split_ifs with cancelled same same
    · simp
    · subst cancelled
      rw [own] at before
      simpa [Ne.symm same] using before
    · subst same
      rw [before]
      simp [live, armed, Ne.symm cancelled]
    · exact before
  broker_timer source := by
    have own := (coherent.network_timer timer network).mpr ⟨value, live, armed⟩
    rw [AList.lookup_erase_eq]
    split
    · next cancelled =>
      have before := coherent.broker_timer source
      rw [cancelled, own] at before
      simpa [cancelled] using before
    · exact coherent.broker_timer source
  source_kind other member := coherent.source_kind other (AList.mem_erase.mp member).2
  ledger := by
    have total := coherent.ledger
    rw [split, Broker.accounted, AList.total_of_lookup _ live, add_assoc] at total
    exact add_left_cancel total
  distinct := by
    have nodup := coherent.distinct
    rw [split] at nodup
    exact (Multiset.nodup_add.mp nodup).2.1
  fresh object member := coherent.fresh object (by rw [split]; exact Multiset.mem_add.mpr (Or.inr member))

end Coherent

end VmnetBroker
