import VmnetBroker.Proofs.Session
import VmnetBroker.Model.Reservations

/-! # Every step acts on the table of reserved names

The table is read off the arrays and the registry, so a step changes the entry of the acting peer and the keys
that it registers or removes. `StepEffect.performs` says which deed of the table each step is.
-/

namespace VmnetBroker

variable {Key : Type} [DecidableEq Key] {env : Environment Key} {broker core next : Broker Key} {event : Event}
  {peer : Connection} {ctx : BrokerContext} {network : Address} {name : CString} {key : Key} {message : Message}
  {calls : Calls} {names : List CString} {value : Network}

section Table

/-- A name is reserved when its key is registered. -/
theorem mem_reserved : name ∈ (broker.reservations env).reserved ↔
    ∃ key ∈ broker.registered, env.createWithCString name = some key := by
  constructor
  · rintro ⟨key, network, created, registered⟩
    exact ⟨key, AList.mem_of_lookup registered, created⟩
  · rintro ⟨key, member, created⟩
    obtain ⟨network, registered⟩ := AList.exists_lookup member
    exact ⟨key, network, created, registered⟩

theorem mem_reserved_of_created (created : env.createWithCString name = some key) :
    name ∈ (broker.reservations env).reserved ↔ key ∈ broker.registered := by
  rw [mem_reserved]
  constructor
  · rintro ⟨other, member, again⟩
    rwa [Option.some.inj (created.symm.trans again)]
  · exact fun member => ⟨key, member, created⟩

/-- The table depends on the names held and on the registered keys. -/
theorem reservations_congr
    (held : ∀ peer, (next.reservations env).held peer = (broker.reservations env).held peer)
    (registered : ∀ key, key ∈ next.registered ↔ key ∈ broker.registered) :
    next.reservations env = broker.reservations env := by
  refine Reservations.ext (funext held) (Set.ext fun name => ?_)
  simp only [mem_reserved, registered]

theorem held_congr (same : next.heldNames peer = broker.heldNames peer) :
    (next.reservations env).held peer = (broker.reservations env).held peer := by
  simp only [Broker.reservations, same]

omit [DecidableEq Key] in
theorem reduceOption_map_some (names : List CString) : (names.map some).reduceOption = names := by
  induction names with
  | nil => rfl
  | cons name names ih => rw [List.map_cons, List.reduceOption_cons_of_some, ih]

theorem held_of_heldNames (held : broker.heldNames peer = some (names.map some)) :
    (broker.reservations env).held peer = some names := by
  simp only [Broker.reservations, held, Option.map_some, reduceOption_map_some]

/-- A connected peer holds the names in its array. -/
theorem WellFormed.held_names (wf : WellFormed env broker) (held : (broker.reservations env).held peer = some names) :
    ∃ ctx, broker.peers.lookup peer = some ctx ∧ ctx.networks.map broker.nameAt = names.map some := by
  have follows := wf.follows_start.held peer
  change broker.heldNames peer = ((broker.reservations env).held peer).map _ at follows
  rw [held] at follows
  obtain ⟨ctx, found, same⟩ := Option.map_eq_some_iff.mp follows
  exact ⟨ctx, found, same⟩

theorem WellFormed.names_of_found (wf : WellFormed env broker) (found : broker.peers.lookup peer = some ctx) :
    ∃ names, (broker.reservations env).held peer = some names ∧
      ctx.networks.map broker.nameAt = names.map some :=
  wf.follows_start.held_eq found

theorem held_eq_none_iff : (broker.reservations env).held peer = none ↔ peer ∉ broker.peers := by
  simp only [Broker.reservations, Broker.heldNames, Option.map_eq_none_iff, AList.lookup_eq_none]

end Table

section Request

/-- The names that an acquire in this state can get: what is registered and what these calls can create. -/
def Broker.Obtainable (env : Environment Key) (broker : Broker Key) (calls : Calls) (name : CString) : Prop :=
  broker.IsRegistered env name ∨ env.Creates calls name

open Classical in
/-- What the policy of a session says in this state. -/
noncomputable def Broker.policyNow (env : Environment Key) (broker : Broker Key) (calls : Calls) :
    CString → VmnetBrokerReturn :=
  env.policy fun name => decide (broker.Obtainable env calls name)

section Policy

variable (known : env.Configured name)
include known

theorem Broker.policyNow_obtainable (possible : broker.Obtainable env calls name) :
    broker.policyNow env calls name = .success := by
  obtain ⟨config, configured⟩ := known.find
  rw [Broker.policyNow, env.policy_configured _ configured, if_pos (by simpa using possible)]

theorem Broker.policyNow_failure (impossible : ¬ broker.Obtainable env calls name) :
    broker.policyNow env calls name = .createFailure := by
  obtain ⟨config, configured⟩ := known.find
  rw [Broker.policyNow, env.policy_configured _ configured, if_neg (by simpa using impossible)]

end Policy

/-- An acquire settles the status of a session whose policy is read off the current state. -/
theorem AcquireEffect.settles {result : Option Object × Int32}
    (effect : AcquireEffect env broker peer ctx name key calls 0 result core) (wf : WellFormed env broker)
    (distinct : env.DistinctKeys) (found : broker.peers.lookup peer = some ctx)
    (created : env.createWithCString name = some key) (held : ctx.networks.map broker.nameAt = names.map some) :
    replyStatus (replyBody result) = verdict (broker.policyNow env calls) names name ∧
    (∀ other, other ∈ core.registered ↔ other ∈ broker.registered ∨
      verdict (broker.policyNow env calls) names name = .success ∧ other = key) ∧
    ∃ more, core.peers.lookup peer = some { networks := ctx.networks ++ more } ∧
      more.map core.nameAt =
        if verdict (broker.policyNow env calls) names name = .success ∧ name ∉ names then [some name] else [] := by
  classical
  refine effect.answers wf ?_ distinct ?_ found created held
  · intro network value stored live named
    obtain ⟨key, registered⟩ := wf.live_registered network (AList.mem_of_lookup live)
    obtain ⟨again, other, lookup, otherNamed, otherKey⟩ := wf.registered_named key network registered
    obtain rfl := Option.some.inj (live.symm.trans lookup)
    obtain rfl := Option.some.inj (named.symm.trans otherNamed)
    exact decide_eq_true (Or.inl ⟨key, network, otherKey, registered⟩)
  · rintro config configured ⟨again, other, _, _, otherKey, unregistered⟩
    have unknown : ¬ broker.IsRegistered env name := by
      rintro ⟨third, network, thirdKey, registered⟩
      obtain rfl := Option.some.inj (otherKey.symm.trans thirdKey)
      rw [unregistered] at registered
      contradiction
    have creates : env.Creates calls name ↔ calls.creates config = true := by
      constructor
      · rintro ⟨found, lookup, good⟩
        rwa [Option.some.inj (configured.symm.trans lookup)]
      · exact fun good => ⟨config, configured, good⟩
    simp only [Broker.Obtainable, unknown, false_or, creates]
    exact Bool.decide_eq_true.symm

/-- What a peer holds is registered. -/
theorem WellFormed.registered_of_held (wf : WellFormed env broker) (distinct : env.DistinctKeys)
    (connected : (broker.reservations env).held peer = some names) (mine : name ∈ names)
    (created : env.createWithCString name = some key) : key ∈ broker.registered := by
  obtain ⟨ctx, found, held⟩ := wf.held_names connected
  obtain ⟨network, _, registered⟩ := (wf.owns_iff distinct created found).mp ((mem_names_iff found held).mp mine)
  exact AList.mem_of_lookup registered

/-- One more name for one peer, and its key in the registry. -/
theorem reservations_grant (distinct : env.DistinctKeys) (created : env.createWithCString name = some key)
    (others : ∀ other ≠ peer, (next.reservations env).held other = (broker.reservations env).held other)
    (registered : ∀ other, other ∈ next.registered ↔ other ∈ broker.registered ∨ other = key)
    (held : (next.reservations env).held peer = some (names ++ [name])) :
    next.reservations env = (broker.reservations env).grant peer names name := by
  apply Reservations.ext
  · funext other
    by_cases own : other = peer
    · subst own
      rw [held, Reservations.grant_held_self]
    · rw [others other own, Reservations.grant_held_of_ne own]
  · ext other
    change _ ↔ other = name ∨ other ∈ (broker.reservations env).reserved
    simp only [mem_reserved, registered]
    constructor
    · rintro ⟨bound, old | rfl, keyed⟩
      · exact Or.inr ⟨bound, old, keyed⟩
      · exact Or.inl (distinct _ _ _ keyed created)
    · rintro (rfl | ⟨bound, old, keyed⟩)
      · exact ⟨key, Or.inr rfl, created⟩
      · exact ⟨bound, Or.inl old, keyed⟩

/-- The verdict on an acquire and its consequences are a step of the table. -/
theorem Reservations.Step.of_verdict (wf : WellFormed env broker) (distinct : env.DistinctKeys)
    (connected : (broker.reservations env).held peer = some names) (created : env.createWithCString name = some key)
    (others : ∀ other ≠ peer, (next.reservations env).held other = (broker.reservations env).held other)
    (registered : ∀ other, other ∈ next.registered ↔ other ∈ broker.registered ∨
      verdict (broker.policyNow env calls) names name = .success ∧ other = key)
    (held : (next.reservations env).held peer = some (if verdict (broker.policyNow env calls) names name = .success ∧
      name ∉ names then names ++ [name] else names)) :
    Reservations.Step { name | env.Configured name } (broker.reservations env)
      (.answers peer name (verdict (broker.policyNow env calls) names name)) (next.reservations env) := by
  have unchanged (still : ¬ (verdict (broker.policyNow env calls) names name = .success ∧ name ∉ names))
      (same : verdict (broker.policyNow env calls) names name = .success → key ∈ broker.registered) :
      next.reservations env = broker.reservations env := by
    rw [if_neg still] at held
    apply reservations_congr
    · intro other
      by_cases own : other = peer
      · rw [own, held, connected]
      · exact others other own
    · intro other
      rw [registered other]
      refine or_iff_left_of_imp ?_
      rintro ⟨granted, rfl⟩
      exact same granted
  have refused {status : VmnetBrokerReturn} (settled : verdict (broker.policyNow env calls) names name = status)
      (failure : status ≠ .success) : next.reservations env = broker.reservations env :=
    unchanged (fun granted => failure (settled.symm.trans granted.1))
      fun granted => absurd (settled.symm.trans granted) failure
  by_cases mine : name ∈ names
  · rw [unchanged (fun new => new.2 mine) fun _ => wf.registered_of_held distinct connected mine created,
      verdict_held mine]
    exact .again connected mine
  rcases le_or_gt maxPeerNetworks names.length with full | room
  · have settled : verdict (broker.policyNow env calls) names name = .internalError := verdict_full mine full
    rw [refused settled (by decide), settled]
    exact .full connected mine full
  have settled : verdict (broker.policyNow env calls) names name = broker.policyNow env calls name :=
    verdict_room mine room
  by_cases known : env.Configured name
  · by_cases possible : broker.Obtainable env calls name
    · rw [Broker.policyNow_obtainable known possible] at settled
      rw [settled] at held registered ⊢
      rw [if_pos ⟨rfl, mine⟩] at held
      have granted : next.reservations env = (broker.reservations env).grant peer names name :=
        reservations_grant distinct created others (by simpa using registered) held
      rw [granted]
      exact .grant connected mine room (Or.inr known)
    · rw [Broker.policyNow_failure known possible] at settled
      rw [refused settled (by decide), settled]
      exact .createFailure connected mine room (fun old => possible (Or.inl old)) known
  · have settledUnknown := settled.trans (env.policy_unconfigured _ known)
    have free : name ∉ (broker.reservations env).reserved := by
      rintro ⟨again, network, keyed, bound⟩
      exact known (wf.configured_of_registered distinct keyed bound)
    rw [refused settledUnknown (by decide), settledUnknown]
    exact .notFound connected mine room free known

end Request

section Steps

/-- A peer that does not act keeps its entry. -/
theorem StepEffect.held_bystander (effect : StepEffect env broker event next) (wf : WellFormed env broker)
    (elsewhere : ∀ action, event.action ≠ some (peer, action)) :
    (next.reservations env).held peer = (broker.reservations env).held peer :=
  held_congr (effect.bystander_names wf elsewhere)

/-- A new peer has an entry without names. -/
theorem reservations_welcome (absent : peer ∉ broker.peers)
    (others : ∀ other ≠ peer, ((broker.welcome peer).reservations env).held other =
      (broker.reservations env).held other) :
    (broker.welcome peer).reservations env = (broker.reservations env).setHeld peer (some []) := by
  apply Reservations.ext
  · funext other
    by_cases own : other = peer
    · subst own
      rw [Reservations.setHeld_held_self]
      apply held_of_heldNames
      rw [heldNames_eq_some (by rw [Broker.welcome_peers, AList.lookup_insert])]
      rfl
    · rw [others other own, Reservations.setHeld_held_of_ne own]
  · ext name
    change _ ↔ name ∈ (broker.reservations env).reserved
    simp only [mem_reserved, Broker.welcome_registered]

/-- A request is a deed of its sender. -/
theorem RequestEffect.performs {result : Option Object × Int32} (wf : WellFormed env broker)
    (distinct : env.DistinctKeys) (found : broker.peers.lookup peer = some ctx)
    (effect : RequestEffect env broker peer ctx message calls result core) (same : core.Matches next)
    (kept : ctx.networks.map next.nameAt = ctx.networks.map broker.nameAt)
    (others : ∀ other ≠ peer, (next.reservations env).held other = (broker.reservations env).held other) :
    ∃ deed, broker.deed env (.peer peer (.dictionary message) calls) = some deed ∧
      Reservations.Acts env (broker.reservations env) deed (next.reservations env) := by
  obtain ⟨names, connected, held⟩ := wf.names_of_found found
  cases effect with
  | malformed rejected =>
    have unchanged : next.reservations env = broker.reservations env := by
      apply reservations_congr
      · intro other
        by_cases own : other = peer
        · subst own
          rw [connected]
          apply held_of_heldNames
          rw [heldNames_eq_some (same.peers ▸ found), kept, held]
        · exact others other own
      · intro key
        rw [same.registered]
    refine ⟨.rejects peer, by simp only [Broker.deed, rejected], ?_⟩
    rw [unchanged]
    exact ⟨.reject connected, trivial⟩
  | @acquire name key _ _ _ requested created ran effect =>
    obtain ⟨status, registered, more, appended, added⟩ := effect.settles wf distinct found created held
    refine ⟨.answers peer name (replyStatus (replyBody result)), by simp only [Broker.deed, requested, ran], ?_⟩
    have nameAt : next.nameAt = core.nameAt := by
      funext network
      simp only [Broker.nameAt, same.heap]
    have array : next.heldNames peer = some (names.map some ++ more.map core.nameAt) := by
      rw [heldNames_eq_some (same.peers ▸ appended), List.map_append, kept, held, nameAt]
    rw [status]
    refine ⟨.of_verdict wf distinct connected created others (fun other => by rw [same.registered, registered]) ?_,
      (env.createWithCString_isSome name).mp (by rw [created]; rfl)⟩
    apply held_of_heldNames
    rw [array, added]
    split <;> simp

/-- A peer that leaves has no entry, and its names stay reserved. -/
theorem reservations_farewell {middle : Broker Key} (others : middle.peers.erase peer = broker.peers.erase peer)
    (registered : middle.registered = broker.registered)
    (still : ∀ other ≠ peer, ((middle.farewell peer).reservations env).held other =
      (broker.reservations env).held other) :
    (middle.farewell peer).reservations env = (broker.reservations env).setHeld peer none := by
  apply Reservations.ext
  · funext other
    by_cases own : other = peer
    · subst own
      rw [Reservations.setHeld_held_self, held_eq_none_iff, Broker.farewell_peers, others]
      simp
    · rw [still other own, Reservations.setHeld_held_of_ne own]
  · ext name
    change _ ↔ name ∈ (broker.reservations env).reserved
    simp only [mem_reserved, Broker.farewell_registered, registered]

/-- Nobody holds a registered name exactly when its network has no owner. -/
theorem WellFormed.unheld_iff (wf : WellFormed env broker) (distinct : env.DistinctKeys)
    (registered : broker.registered.lookup key = some network) (created : env.createWithCString name = some key) :
    (∀ peer names, (broker.reservations env).held peer = some names → name ∉ names) ↔
      broker.owners network = 0 := by
  rw [owners_eq_zero_iff]
  constructor
  · intro unheld peer ctx found member
    obtain ⟨names, connected, held⟩ := wf.names_of_found found
    apply unheld peer names connected
    rw [mem_names_iff found held, wf.owns_iff distinct created found]
    exact ⟨network, member, registered⟩
  · intro absent peer names connected mine
    obtain ⟨ctx, found, held⟩ := wf.held_names connected
    rw [mem_names_iff found held, wf.owns_iff distinct created found] at mine
    obtain ⟨other, member, bound⟩ := mine
    obtain rfl := Option.some.inj (registered.symm.trans bound)
    exact absent peer ctx found member

/-- A network has no owner exactly when its timer is armed. -/
theorem WellFormed.owners_eq_zero_iff_armed (wf : WellFormed env broker)
    (live : broker.heap.lookup network = some value) :
    broker.owners network = 0 ↔ value.idleTimer.isSome = true := by
  rw [wf.timed network value live, wf.counted network value live]
  omega

/-- Removing a network frees its name. -/
theorem reservations_discard {source : Object} {rest : Multiset Object} (distinct : env.DistinctKeys)
    (created : env.createWithCString name = some key)
    (others : ∀ other, ((broker.discard key network source rest).reservations env).held other =
      (broker.reservations env).held other) :
    (broker.discard key network source rest).reservations env =
      { broker.reservations env with reserved := (broker.reservations env).reserved \ {name} } := by
  apply Reservations.ext
  · exact funext others
  · ext other
    change _ ↔ other ∈ (broker.reservations env).reserved ∧ other ≠ name
    simp only [mem_reserved]
    change (∃ bound ∈ broker.registered.erase key, _) ↔ _
    simp only [AList.mem_erase]
    constructor
    · rintro ⟨bound, ⟨different, old⟩, keyed⟩
      refine ⟨⟨bound, old, keyed⟩, ?_⟩
      rintro rfl
      exact different (Option.some.inj (keyed.symm.trans created))
    · rintro ⟨⟨bound, old, keyed⟩, different⟩
      refine ⟨bound, ⟨?_, old⟩, keyed⟩
      rintro rfl
      exact different (distinct _ _ _ keyed created)

/-- What is seen of the timer of a registered network. -/
theorem WellFormed.deed_timer (wf : WellFormed env broker) {source : Object}
    (registered : broker.registered.lookup key = some network) (live : broker.heap.lookup network = some value)
    (armed : value.idleTimer = some source) :
    ∃ name, env.createWithCString name = some key ∧ broker.deed env (.timer source) = some (.expires name) := by
  obtain ⟨stored, name, lookup, named, created⟩ := wf.registered_named key network registered
  have timer := (wf.network_timer source network).mpr ⟨value, live, armed⟩
  refine ⟨name, created, ?_⟩
  simp only [Broker.deed, timer, Broker.nameAt, lookup, Option.bind_some, named, Option.map_some]

/-- Every step is one deed of the table, or none. -/
theorem StepEffect.performs (effect : StepEffect env broker event next) (wf : WellFormed env broker)
    (distinct : env.DistinctKeys) :
    (broker.deed env event = none ∧ next.reservations env = broker.reservations env) ∨
      ∃ deed, broker.deed env event = some deed ∧
        Reservations.Acts env (broker.reservations env) deed (next.reservations env) := by
  have still (other : Connection) (elsewhere : ∀ action, event.action ≠ some (other, action)) :
      (next.reservations env).held other = (broker.reservations env).held other :=
    effect.held_bystander wf elsewhere
  have others {peer : Connection} {action : Action} (acts : event.action = some (peer, action)) :
      ∀ other ≠ peer, (next.reservations env).held other = (broker.reservations env).held other := by
    intro other different
    apply still
    rintro again same
    exact different (congrArg Prod.fst (Option.some.inj (same.symm.trans acts)))
  cases effect with
  | ignored harmless =>
    refine Or.inl ⟨?_, rfl⟩
    unfold Event.Ignored at harmless
    split at harmless <;> first | rfl | contradiction
  | @accepted peer absent =>
    refine Or.inr ⟨.connects peer, rfl, ?_⟩
    rw [reservations_welcome absent (others rfl)]
    exact ⟨.connect (held_eq_none_iff.mpr absent), trivial⟩
  | @requested peer ctx _ _ _ _ _ found request same replied =>
    refine Or.inr (request.performs wf distinct found same ?_ (others rfl))
    exact List.map_congr_left fun network member =>
      (StepEffect.requested found request same replied).nameAt_held wf found member
  | @disconnected peer ctx _ middle found coherent timed emptied rest released =>
    obtain ⟨names, connected, _⟩ := wf.names_of_found found
    refine Or.inr ⟨.disconnects peer, rfl, ?_⟩
    have registered : middle.registered = broker.registered := congrArg (Option.getD · ∅) released.registry
    rw [reservations_farewell rest registered (others rfl)]
    exact ⟨.disconnect connected, trivial⟩
  | @removed source network key value rest registered live armed split =>
    obtain ⟨name, created, deed⟩ := wf.deed_timer registered live armed
    refine Or.inr ⟨.expires name, deed, ?_⟩
    rw [reservations_discard distinct created fun other => still other nofun]
    refine ⟨.expire ((mem_reserved_of_created created).mpr (AList.mem_of_lookup registered)) ?_, trivial⟩
    rw [wf.unheld_iff distinct registered created, wf.owners_eq_zero_iff_armed live, armed]
    rfl

end Steps

end VmnetBroker
