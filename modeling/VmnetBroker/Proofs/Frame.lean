import VmnetBroker.Proofs.Step

/-! # What a step leaves alone

Frame facts for requests and for whole steps: the other peers, the networks that a request does not
name, the identity of every registered network whose timer does not fire, and the arrays of the peers
that stay connected. Names stored in blocks never change, so ownership can be read by name.
-/

namespace VmnetBroker

variable {Key : Type}

/-- The peer holds the network with this name. -/
def Broker.Owns (broker : Broker Key) (peer : Connection) (name : CString) : Prop :=
  ∃ ctx network value, broker.peers.lookup peer = some ctx ∧ network ∈ ctx.networks ∧
    broker.heap.lookup network = some value ∧ value.name = some name

variable [DecidableEq Key] {env : Environment Key} {broker core next : Broker Key} {event : Event}
  {peer : Connection} {ctx : BrokerContext} {network : Address} {value : Network} {key : Key} {name : CString}
  {message : Message} {calls : Calls} {result : Option Object × Int32}

section Names

/-- A peer owns the network of a name exactly when it holds what is registered under its key. -/
theorem WellFormed.owns_iff (wf : WellFormed env broker) (distinct : env.DistinctKeys) {key : Key}
    (created : env.createWithCString name = some key) (found : broker.peers.lookup peer = some ctx) :
    broker.Owns peer name ↔ ∃ network ∈ ctx.networks, broker.registered.lookup key = some network := by
  constructor
  · rintro ⟨_, network, value, lookup, member, live, named⟩
    obtain rfl := Option.some.inj (found.symm.trans lookup)
    obtain ⟨other, registered⟩ := wf.live_registered network (AList.mem_of_lookup live)
    obtain ⟨stored, storedName, storedLive, storedNamed, storedKey⟩ :=
      wf.registered_named other network registered
    obtain rfl := Option.some.inj (live.symm.trans storedLive)
    obtain rfl := Option.some.inj (named.symm.trans storedNamed)
    obtain rfl := Option.some.inj (created.symm.trans storedKey)
    exact ⟨network, member, registered⟩
  · rintro ⟨network, member, registered⟩
    obtain ⟨value, storedName, live, named, storedKey⟩ := wf.registered_named key network registered
    obtain rfl := distinct _ _ key storedKey created
    exact ⟨ctx, network, value, found, member, live, named⟩

/-- A registered name is configured. -/
theorem WellFormed.configured_of_registered (wf : WellFormed env broker) (distinct : env.DistinctKeys) {key : Key}
    {network : Address} (created : env.createWithCString name = some key)
    (registered : broker.registered.lookup key = some network) : env.Configured name := by
  obtain ⟨value, storedName, live, named, storedKey⟩ := wf.registered_named key network registered
  obtain rfl := distinct _ _ key storedKey created
  exact wf.configured network value storedName live named

end Names

section Requests

/-- The registered network that a request names. -/
def Broker.NamedIn (env : Environment Key) (broker : Broker Key) (message : Message) (network : Address) :
    Prop :=
  ∃ name key, message.acquires = some name ∧ env.createWithCString name = some key ∧
    broker.registered.lookup key = some network

/-- The other peers, and the networks that a request does not name, are as they were. -/
structure Broker.Undisturbed (env : Environment Key) (broker next : Broker Key) (peer : Connection)
    (message : Message) : Prop where
  contexts : ∀ other ≠ peer, next.peers.lookup other = broker.peers.lookup other
  registered : ∀ key network, broker.registered.lookup key = some network →
    next.registered.lookup key = some network
  blocks : ∀ network value, broker.heap.lookup network = some value → ¬ broker.NamedIn env message network →
    next.heap.lookup network = some value
  timers : ∀ source network, broker.sources.lookup source = some (.removeNetwork network) →
    ¬ broker.NamedIn env message network → next.sources.lookup source = some (.removeNetwork network)

namespace Broker.Undisturbed

theorem refl (broker : Broker Key) : broker.Undisturbed env broker peer message :=
  ⟨fun _ _ => rfl, fun _ _ found => found, fun _ _ live _ => live, fun _ _ armed _ => armed⟩

theorem of_matches (undisturbed : broker.Undisturbed env core peer message) (same : core.Matches next) :
    broker.Undisturbed env next peer message where
  contexts := same.peers ▸ undisturbed.contexts
  registered := same.registered ▸ undisturbed.registered
  blocks := same.heap ▸ undisturbed.blocks
  timers := same.sources ▸ undisturbed.timers

end Broker.Undisturbed

/-- A request touches the context of its sender and the network that it names, nothing else. -/
theorem RequestEffect.undisturbed (effect : RequestEffect env broker peer ctx message calls result core)
    (coherent : Coherent env broker) : broker.Undisturbed env core peer message := by
  cases effect with
  | malformed rejected => exact .refl broker
  | @acquire name key _ _ _ requested created ran effect =>
    cases effect with
    | owned | full | notFound | createFailure => exact .refl broker
    | @shared network value _ registered unowned room live stored =>
      have named : broker.NamedIn env message network := ⟨name, key, requested, created, registered⟩
      refine ⟨fun other different => AList.lookup_insert_ne different, fun _ _ found => found, ?_, ?_⟩
      · intro other stored lookup unnamed
        have different : other ≠ network := by
          rintro rfl
          exact unnamed named
        exact (AList.lookup_insert_ne different).trans lookup
      · intro source other armed unnamed
        cases timer : value.idleTimer with
        | none => simpa [Broker.attach, timer] using armed
        | some own =>
          have different : source ≠ own := by
            rintro rfl
            have captured := (coherent.network_timer source network).mpr ⟨value, live, timer⟩
            obtain rfl := Handler.removeNetwork.inj (Option.some.inj (captured.symm.trans armed))
            exact unnamed named
          simp only [Broker.attach, timer, Option.elim_some]
          exact (AList.lookup_erase_ne different).trans armed
    | @created network _ _ _ _ unregistered room configured good allocated absent kinds refNew serializationNew =>
      refine ⟨fun other different => AList.lookup_insert_ne different, ?_, ?_, fun _ _ armed _ => armed⟩
      · intro other bound found
        have different : other ≠ key := by
          rintro rfl
          rw [unregistered] at found
          contradiction
        exact (AList.lookup_insert_ne different).trans found
      · intro other stored lookup _
        have different : other ≠ network := by
          rintro rfl
          exact absent (AList.mem_of_lookup lookup)
        refine (AList.lookup_insert_ne different).trans ?_
        exact (AList.lookup_insert_ne different).trans lookup

end Requests

section Steps

/-- The block is still there, with the same name and the same references. -/
def Broker.Keeps (broker next : Broker Key) (network : Address) : Prop :=
  ∀ value, broker.heap.lookup network = some value → ∃ after, next.heap.lookup network = some after ∧
    after.name = value.name ∧ after.serialization = value.serialization

omit [DecidableEq Key] in
theorem Broker.Keeps.of_eq (same : next.heap.lookup network = broker.heap.lookup network) :
    broker.Keeps next network :=
  fun value live => ⟨value, same.trans live, rfl, rfl⟩

omit [DecidableEq Key] in
/-- Attaching a peer changes the count and the timer of one block. -/
theorem Broker.Keeps.attach (live : broker.heap.lookup network = some value) (other : Address) :
    broker.Keeps (broker.attach peer ctx network value) other := by
  by_cases same : other = network
  · subst same
    intro stored lookup
    obtain rfl := Option.some.inj (live.symm.trans lookup)
    exact ⟨_, AList.lookup_insert _, rfl, rfl⟩
  · exact .of_eq (AList.lookup_insert_ne same)

/-- A request keeps every allocated block. -/
theorem RequestEffect.keeps (effect : RequestEffect env broker peer ctx message calls result core)
    (live : network ∈ broker.heap) : broker.Keeps core network := by
  cases effect with
  | malformed rejected => exact .of_eq rfl
  | acquire requested created ran effect =>
    cases effect with
    | owned | full | notFound | createFailure => exact .of_eq rfl
    | shared registered unowned room live stored => exact .attach live network
    | @created new _ _ _ _ unregistered room configured good allocated absent kinds refNew serializationNew =>
      have old : network ≠ new := by
        rintro rfl
        exact absent live
      refine .of_eq ((AList.lookup_insert_ne old).trans ?_)
      exact AList.lookup_insert_ne old

/-- A step keeps a registered network, unless its own timer fires. -/
theorem StepEffect.keeps (effect : StepEffect env broker event next) (wf : WellFormed env broker)
    (found : broker.registered.lookup key = some network) :
    (next.registered.lookup key = some network ∧ broker.Keeps next network) ∨
      ∃ source value, event = .timer source ∧ broker.heap.lookup network = some value ∧
        value.idleTimer = some source := by
  cases effect with
  | ignored harmless => exact Or.inl ⟨found, .of_eq rfl⟩
  | accepted absent => exact Or.inl ⟨by simpa using found, .of_eq (by simp)⟩
  | @requested _ _ _ _ _ _ _ _ effect same replied =>
    have undisturbed := (effect.undisturbed wf.toCoherent).of_matches same
    refine Or.inl ⟨undisturbed.registered key network found, ?_⟩
    intro value live
    rw [same.heap]
    exact effect.keeps (wf.live_of_registered found) value live
  | @disconnected _ ctx _ middle lookup coherent timed emptied others released =>
    have registered : middle.registered = broker.registered := by
      unfold Broker.registered
      rw [released.registry]
    refine Or.inl ⟨by simpa [registered] using found, ?_⟩
    intro value live
    rw [Broker.farewell_heap]
    by_cases popped : network ∈ ctx.networks
    · obtain ⟨timer, lowered⟩ := released.lowered network popped value live
      exact ⟨_, lowered, rfl, rfl⟩
    · exact ⟨value, (released.untouched network popped).trans live, rfl, rfl⟩
  | @removed source gone other value rest bound live armed split =>
    by_cases same : network = gone
    · subst same
      exact Or.inr ⟨source, value, rfl, live, armed⟩
    · have different : key ≠ other := by
        rintro rfl
        exact same (Option.some.inj (found.symm.trans bound))
      exact Or.inl ⟨(AList.lookup_erase_ne different).trans found, .of_eq (AList.lookup_erase_ne same)⟩

/-- A request only appends to the array of its sender. -/
theorem RequestEffect.grows (effect : RequestEffect env broker peer ctx message calls result core)
    (found : broker.peers.lookup peer = some ctx) :
    ∃ more, core.peers.lookup peer = some { networks := ctx.networks ++ more } := by
  have unchanged : broker.peers.lookup peer = some { networks := ctx.networks ++ [] } := by simpa using found
  cases effect with
  | malformed rejected => exact ⟨[], unchanged⟩
  | acquire requested created ran effect =>
    cases effect with
    | owned | full | notFound | createFailure => exact ⟨[], unchanged⟩
    | @shared network => exact ⟨[network], AList.lookup_insert _⟩
    | @created network => exact ⟨[network], AList.lookup_insert _⟩

/-- A peer keeps what it holds until its connection is invalidated. -/
theorem StepEffect.context (effect : StepEffect env broker event next) (wf : WellFormed env broker)
    (found : broker.peers.lookup peer = some ctx)
    (connected : ∀ calls, event ≠ .peer peer .connectionInvalid calls) :
    ∃ more, next.peers.lookup peer = some { networks := ctx.networks ++ more } := by
  have unchanged : broker.peers.lookup peer = some { networks := ctx.networks ++ [] } := by simpa using found
  cases effect with
  | ignored harmless => exact ⟨[], unchanged⟩
  | @accepted new absent =>
    have different : peer ≠ new := by
      rintro rfl
      exact absent (AList.mem_of_lookup found)
    exact ⟨[], by rw [Broker.welcome_peers, AList.lookup_insert_ne different]; exact unchanged⟩
  | @requested sender held _ _ _ _ _ lookup effect same replied =>
    by_cases own : peer = sender
    · subst own
      obtain rfl := Option.some.inj (found.symm.trans lookup)
      rw [same.peers]
      exact effect.grows found
    · have undisturbed := (effect.undisturbed wf.toCoherent).of_matches same
      exact ⟨[], by rw [undisturbed.contexts peer own]; exact unchanged⟩
  | @disconnected leaver _ calls _ _ _ _ _ others _ =>
    have different : peer ≠ leaver := by
      rintro rfl
      exact connected calls rfl
    exact ⟨[], by rw [Broker.farewell_peers, others, AList.lookup_erase_ne different]; exact unchanged⟩
  | removed => exact ⟨[], unchanged⟩

/-- A block with a name had it before, or the step has just created the network of this name. -/
theorem StepEffect.name_origin (effect : StepEffect env broker event next) (wf : WellFormed env broker)
    {after : Network} (lookup : next.heap.lookup network = some after) (named : after.name = some name) :
    (∃ before, broker.heap.lookup network = some before ∧ before.name = some name) ∨
      ∃ peer ctx message calls key config, event = .peer peer (.dictionary message) calls ∧
        message.acquires = some name ∧ broker.peers.lookup peer = some ctx ∧
        ctx.networks.length < maxPeerNetworks ∧ env.createWithCString name = some key ∧
        broker.registered.lookup key = none ∧ env.networks.find? (·.name = name) = some config ∧
        calls.creates config = true := by
  cases effect with
  | ignored harmless => exact Or.inl ⟨after, lookup, named⟩
  | accepted absent => exact Or.inl ⟨after, by simpa using lookup, named⟩
  | requested found effect same replied =>
    rw [same.heap] at lookup
    rcases effect.name_origin lookup named with
      old | ⟨requested, room, ⟨key, created, unregistered⟩, config, configured, good⟩
    · exact Or.inl old
    · exact Or.inr ⟨_, _, _, _, key, config, rfl, requested, found, room, created, unregistered, configured, good⟩
  | @disconnected peer ctx _ _ found coherent timed emptied others released =>
    rw [Broker.farewell_heap] at lookup
    obtain ⟨before, live, same⟩ := released.name_origin (wf.held_live peer ctx found) lookup
    exact Or.inl ⟨before, live, same.trans named⟩
  | removed found live armed split =>
    simp only [Broker.discard, AList.lookup_erase_eq] at lookup
    split at lookup
    · contradiction
    · exact Or.inl ⟨after, lookup, named⟩

end Steps

end VmnetBroker
