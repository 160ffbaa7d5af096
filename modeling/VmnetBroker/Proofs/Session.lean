import VmnetBroker.Proofs.Frame
import VmnetBroker.Model.Session
import VmnetBroker.Machine.Components
import Mathlib.Data.List.ReduceOption

/-! # The broker follows one session for each connection

`Follows` relates a broker state to a family of sessions: the names in every ownership array and the
statuses sent since a chosen start are those of the sessions. Every step keeps the relation, with
the family moving only by the action of the event. The relation needs that a registered network
is one that can be had, which is an invariant of runs in which creation depends on the name only.
-/

namespace VmnetBroker

variable {Key : Type}

/-- Every live network has a name that can be created. -/
def Broker.Offered (creatable : CString → Bool) (broker : Broker Key) : Prop :=
  ∀ network value name, broker.heap.lookup network = some value → value.name = some name →
    creatable name = true

/-- The arrays, by name, and the statuses sent since the start are those of the sessions. -/
structure Follows (start broker : Broker Key) (sessions : Connection → Session) : Prop where
  held : ∀ peer, broker.heldNames peer = (sessions peer).held.map (·.map some)
  statuses : ∀ peer, broker.statusesTo peer = start.statusesTo peer ++ (sessions peer).statuses

theorem heldNames_eq_some {broker : Broker Key} {peer : Connection} {ctx : BrokerContext}
    (found : broker.peers.lookup peer = some ctx) :
    broker.heldNames peer = some (ctx.networks.map broker.nameAt) := by
  simp [Broker.heldNames, found]

/-- A reply is added for its receiver only. -/
theorem statusesTo_append {broker next : Broker Key} {peer : Connection} {message : Message} {body : Dictionary}
    (sent : next.sent = broker.sent ++ message.replies peer body) (receiver : Connection) :
    next.statusesTo receiver = broker.statusesTo receiver ++
      if receiver = peer ∧ message.replyContext then [replyStatus body] else [] := by
  cases expected : message.replyContext with
  | false => simp [Broker.statusesTo, Broker.repliesTo, sent, Message.replies, expected]
  | true =>
    by_cases same : receiver = peer
    · simp [Broker.statusesTo, Broker.repliesTo, sent, Message.replies, expected, same]
    · simp [Broker.statusesTo, Broker.repliesTo, sent, Message.replies, expected, same, Ne.symm same]

theorem statusesTo_congr {broker next : Broker Key} (sent : next.sent = broker.sent) (receiver : Connection) :
    next.statusesTo receiver = broker.statusesTo receiver := by
  simp [Broker.statusesTo, Broker.repliesTo, sent]

theorem replyStatus_error {status : VmnetBrokerReturn}
    (known : status ∈ [VmnetBrokerReturn.invalidRequest, .internalError, .notFound, .createFailure]) :
    replyStatus (replyBody (none, status.toInt)) = status := by
  simp only [List.mem_cons, List.not_mem_nil, or_false] at known
  rcases known with rfl | rfl | rfl | rfl <;> rfl

variable [DecidableEq Key] {env : Environment Key} {creatable : CString → Bool} {start broker core next : Broker Key}
  {event : Event} {peer : Connection} {ctx : BrokerContext} {network : Address} {name : CString} {key : Key}
  {message : Message} {calls : Calls} {result : Option Object × Int32} {sessions : Connection → Session}

/-- Creation by name keeps every live network creatable. -/
theorem Broker.Offered.effect (offered : broker.Offered creatable) (wf : WellFormed env broker)
    (effect : StepEffect env broker event next) (uniform : Uniform env creatable broker event) :
    next.Offered creatable := by
  intro network value name lookup named
  rcases effect.name_origin wf lookup named with
    ⟨before, live, same⟩ |
    ⟨peer, ctx, message, calls, key, config, rfl, requested, found, room, created, unregistered, configured, good⟩
  · exact offered network before name live same
  · rw [← uniform name config requested configured ⟨ctx, key, found, room, created, unregistered⟩]
    exact good

/-- A held block is renamed by no step. -/
theorem StepEffect.nameAt_held (effect : StepEffect env broker event next) (wf : WellFormed env broker)
    (found : broker.peers.lookup peer = some ctx) (member : network ∈ ctx.networks) :
    next.nameAt network = broker.nameAt network := by
  obtain ⟨value, live⟩ := AList.exists_lookup (wf.held_live peer ctx found network member)
  obtain ⟨key, registered⟩ := wf.live_registered network (AList.mem_of_lookup live)
  rcases effect.keeps wf registered with ⟨_, keeps⟩ | ⟨source, stored, _, lookup, armed⟩
  · obtain ⟨after, afterLive, sameName, _⟩ := keeps value live
    simp [Broker.nameAt, live, afterLive, sameName]
  · obtain rfl := Option.some.inj (live.symm.trans lookup)
    have idle : value.peers = 0 := (wf.timed network value live).mp (by simp [armed])
    have counted := wf.counted network value live
    have positive := owners_pos found member
    omega

/-- Events of others leave the array of a peer alone. -/
theorem StepEffect.bystander (effect : StepEffect env broker event next) (wf : WellFormed env broker)
    (elsewhere : ∀ action, event.action ≠ some (peer, action)) :
    next.peers.lookup peer = broker.peers.lookup peer ∧ next.statusesTo peer = broker.statusesTo peer := by
  cases effect with
  | ignored harmless => exact ⟨rfl, rfl⟩
  | @accepted new absent =>
    have different : peer ≠ new := by
      rintro rfl
      exact elsewhere .connect rfl
    exact ⟨by rw [Broker.welcome_peers, AList.lookup_insert_ne different], statusesTo_congr (by simp) peer⟩
  | @requested sender _ message _ _ _ _ found effect same replied =>
    have different : peer ≠ sender := by
      rintro rfl
      exact elsewhere (.request message) rfl
    have undisturbed := (effect.undisturbed wf.toCoherent).of_matches same
    refine ⟨undisturbed.contexts peer different, ?_⟩
    rw [statusesTo_append replied, if_neg (by simp [different]), List.append_nil]
  | @disconnected leaver _ _ _ found coherent timed emptied others released =>
    have different : peer ≠ leaver := by
      rintro rfl
      exact elsewhere .disconnect rfl
    refine ⟨?_, statusesTo_congr (by rw [Broker.farewell_sent, released.sent]) peer⟩
    rw [Broker.farewell_peers, others, AList.lookup_erase_ne different]
  | removed => exact ⟨rfl, rfl⟩

/-- A peer that does not act keeps its names. -/
theorem StepEffect.bystander_names (effect : StepEffect env broker event next) (wf : WellFormed env broker)
    (elsewhere : ∀ action, event.action ≠ some (peer, action)) :
    next.heldNames peer = broker.heldNames peer := by
  obtain ⟨same, _⟩ := effect.bystander wf elsewhere
  cases found : broker.peers.lookup peer with
  | none => simp [Broker.heldNames, same, found]
  | some ctx =>
    rw [heldNames_eq_some found, heldNames_eq_some (same.trans found)]
    congr 1
    exact List.map_congr_left fun network member => effect.nameAt_held wf found member

section Request

variable {names : List CString}

omit [DecidableEq Key] in
/-- A name read from the array is the name of an owned network. -/
theorem mem_nameAt_iff (found : broker.peers.lookup peer = some ctx) :
    some name ∈ ctx.networks.map broker.nameAt ↔ broker.Owns peer name := by
  rw [List.mem_map]
  constructor
  · rintro ⟨network, member, named⟩
    obtain ⟨value, live, stored⟩ := Option.bind_eq_some_iff.mp named
    exact ⟨ctx, network, value, found, member, live, stored⟩
  · rintro ⟨_, network, value, lookup, member, live, stored⟩
    obtain rfl := Option.some.inj (found.symm.trans lookup)
    exact ⟨network, member, by simp [Broker.nameAt, live, stored]⟩

omit [DecidableEq Key] in
/-- Holding a name is owning its network. -/
theorem mem_names_iff (found : broker.peers.lookup peer = some ctx)
    (held : ctx.networks.map broker.nameAt = names.map some) : name ∈ names ↔ broker.Owns peer name := by
  rw [← mem_nameAt_iff found, held, List.mem_map_of_injective (Option.some_injective _)]

/-- The three statuses other than success that a policy or a full array leads to are failures. -/
private theorem failures_distinct : VmnetBrokerReturn.internalError ≠ .success ∧
    VmnetBrokerReturn.notFound ≠ .success ∧ VmnetBrokerReturn.createFailure ≠ .success := by
  decide

/-- Granting a registered name registers nothing. -/
private theorem registered_iff_of_lookup (registered : broker.registered.lookup key = some network)
    (status : VmnetBrokerReturn) (other : Key) :
    other ∈ broker.registered ↔ other ∈ broker.registered ∨ status = .success ∧ other = key := by
  refine ⟨Or.inl, ?_⟩
  rintro (old | ⟨_, rfl⟩)
  · exact old
  · exact AList.mem_of_lookup registered

/-- An acquire answers and appends as the session of the peer does. -/
theorem AcquireEffect.answers (effect : AcquireEffect env broker peer ctx name key calls 0 result core)
    (wf : WellFormed env broker) (offered : broker.Offered creatable) (distinct : env.DistinctKeys)
    (uniform : ∀ config, env.networks.find? (·.name = name) = some config → broker.Attempts env peer name →
      calls.creates config = creatable name)
    (found : broker.peers.lookup peer = some ctx) (created : env.createWithCString name = some key)
    (held : ctx.networks.map broker.nameAt = names.map some) :
    replyStatus (replyBody result) = verdict (env.policy creatable) names name ∧
    (∀ other, other ∈ core.registered ↔ other ∈ broker.registered ∨
      verdict (env.policy creatable) names name = .success ∧ other = key) ∧
    ∃ more, core.peers.lookup peer = some { networks := ctx.networks ++ more } ∧
      more.map core.nameAt =
        if verdict (env.policy creatable) names name = .success ∧ name ∉ names then [some name] else [] := by
  have owns := (mem_names_iff found held).trans (wf.owns_iff distinct created found)
  have length : names.length = ctx.networks.length := by
    simpa using (congrArg List.length held).symm
  have unchanged : broker.peers.lookup peer = some { networks := ctx.networks ++ [] } := by simpa using found
  cases effect with
  | @owned network value _ registered member live stored =>
    have mine : name ∈ names := owns.mpr ⟨network, member, registered⟩
    rw [verdict_held mine]
    exact ⟨rfl, registered_iff_of_lookup registered _, [], unchanged, by simp [mine]⟩
  | @shared network value _ registered unowned room live stored =>
    obtain ⟨_, storedName, storedLive, named, storedKey⟩ := wf.registered_named key network registered
    obtain rfl := Option.some.inj (live.symm.trans storedLive)
    obtain rfl := distinct _ _ key storedKey created
    have other : storedName ∉ names := by
      rw [owns]
      rintro ⟨again, member, bound⟩
      obtain rfl := Option.some.inj (registered.symm.trans bound)
      exact unowned member
    obtain ⟨config, configured⟩ := (wf.configured_of_registered distinct created registered).find
    rw [verdict_room other (length ▸ room), env.policy_configured creatable configured,
      if_pos (offered network value storedName live named)]
    exact ⟨rfl, registered_iff_of_lookup registered _, [network], AList.lookup_insert _,
      by simp [other, Broker.nameAt, Broker.attach, named]⟩
  | @created network config _ _ _ unregistered room configured good allocated absent kinds refNew serializationNew =>
    have other : name ∉ names := by simp [owns, unregistered]
    have possible : creatable name = true :=
      (uniform config configured ⟨ctx, key, found, room, created, unregistered⟩).symm.trans good
    rw [verdict_room other (length ▸ room), env.policy_configured creatable configured, if_pos possible]
    refine ⟨rfl, ?_, [network], AList.lookup_insert _, by simp [other, Broker.nameAt, Broker.attach]⟩
    intro other
    change other ∈ broker.registered.insert key network ↔ _
    rw [AList.mem_insert, or_comm]
    simp
  | full unowned full =>
    have other : name ∉ names := by
      rw [owns]
      rintro ⟨network, member, registered⟩
      exact unowned network registered member
    rw [verdict_full other (length ▸ full)]
    exact ⟨rfl, by simp [failures_distinct.1], [], unchanged, by simp [failures_distinct.1]⟩
  | notFound unregistered room unconfigured =>
    have other : name ∉ names := by simp [owns, unregistered]
    rw [verdict_room other (length ▸ room), env.policy_unconfigured creatable unconfigured]
    exact ⟨rfl, by simp [failures_distinct.2.1], [], unchanged, by simp [failures_distinct.2.1]⟩
  | @createFailure config unregistered room configured bad =>
    have other : name ∉ names := by simp [owns, unregistered]
    have impossible : ¬ creatable name = true := by
      rw [← uniform config configured ⟨ctx, key, found, room, created, unregistered⟩, bad]
      simp
    rw [verdict_room other (length ▸ room), env.policy_configured creatable configured, if_neg impossible]
    exact ⟨rfl, by simp [failures_distinct.2.2], [], unchanged, by simp [failures_distinct.2.2]⟩

end Request

/-- The registered keys are those of the start and those of the names granted since. -/
def Registers (env : Environment Key) (start broker : Broker Key) (sessions : Connection → Session) : Prop :=
  ∀ key, key ∈ broker.registered ↔ key ∈ start.registered ∨
    ∃ peer, ∃ name ∈ (sessions peer).granted, env.createWithCString name = some key

section Simulation

omit [DecidableEq Key] in
/-- The session of a connected peer lists the names in its array. -/
theorem Follows.held_eq (follows : Follows start broker sessions) (found : broker.peers.lookup peer = some ctx) :
    ∃ names, (sessions peer).held = some names ∧ ctx.networks.map broker.nameAt = names.map some := by
  have held := follows.held peer
  rw [heldNames_eq_some found] at held
  obtain ⟨names, session, same⟩ := Option.map_eq_some_iff.mp held.symm
  exact ⟨names, session, same.symm⟩

/-- The part of a step that belongs to the acting peer: its array and statuses are those of its new
session, and the registry grows by what the session is granted. -/
private structure Moved (env : Environment Key) (start broker next : Broker Key) (peer : Connection)
    (before after : Session) : Prop where
  held : next.heldNames peer = after.held.map (·.map some)
  statuses : next.statusesTo peer = start.statusesTo peer ++ after.statuses
  gained : ∃ gained, after.granted = gained ++ before.granted ∧
    ∀ key, key ∈ next.registered ↔ key ∈ broker.registered ∨
      ∃ name ∈ gained, env.createWithCString name = some key

/-- An acquire moves the session of its sender. -/
private theorem AcquireEffect.moved {session : Session} {names : List CString}
    (effect : AcquireEffect env broker peer ctx name key calls 0 result core) (wf : WellFormed env broker)
    (offered : broker.Offered creatable) (distinct : env.DistinctKeys)
    (uniform : ∀ config, env.networks.find? (·.name = name) = some config → broker.Attempts env peer name →
      calls.creates config = creatable name)
    (found : broker.peers.lookup peer = some ctx) (created : env.createWithCString name = some key)
    (requested : message.acquires = some name) (held : ctx.networks.map broker.nameAt = names.map some)
    (kept : ctx.networks.map next.nameAt = ctx.networks.map broker.nameAt) (same : core.Matches next)
    (connected : session.held = some names)
    (told : next.statusesTo peer = start.statusesTo peer ++ (session.statuses ++
      if message.replyContext then [replyStatus (replyBody result)] else [])) :
    Moved env start broker next peer session (session.ask (env.policy creatable) names message) := by
  obtain ⟨status, registered, more, appended, added⟩ :=
    effect.answers wf offered distinct uniform found created held
  have array : next.heldNames peer = some (names.map some ++ more.map core.nameAt) := by
    have nameAt : next.nameAt = core.nameAt := by
      funext network
      simp [Broker.nameAt, same.heap]
    rw [heldNames_eq_some (same.peers ▸ appended), List.map_append, kept, held, nameAt]
  rw [added] at array
  rw [status] at told
  by_cases granted : verdict (env.policy creatable) names name = .success
  · rw [Session.ask_granted requested granted]
    rw [granted] at array told
    refine ⟨?_, told, [name], rfl, ?_⟩
    · by_cases mine : name ∈ names
      · simp [array, mine, Session.grant]
      · simp [array, mine, Session.grant]
    · intro other
      rw [same.registered, registered other]
      simp [granted, created, eq_comm]
  · rw [Session.ask_refused requested granted]
    refine ⟨?_, told, [], rfl, ?_⟩
    · simp [array, granted, Session.tell, connected]
    · intro other
      rw [same.registered, registered other]
      simp [granted]

/-- A request moves the session of its sender. -/
private theorem StepEffect.requested_session
    (effect : StepEffect env broker (.peer peer (.dictionary message) calls) next) (wf : WellFormed env broker)
    (offered : broker.Offered creatable) (distinct : env.DistinctKeys)
    (uniform : Uniform env creatable broker (.peer peer (.dictionary message) calls))
    (follows : Follows start broker sessions) :
    Moved env start broker next peer (sessions peer)
      ((sessions peer).act (env.policy creatable) (.request message)) := by
  have kept {held : BrokerContext} (found : broker.peers.lookup peer = some held) :
      held.networks.map next.nameAt = held.networks.map broker.nameAt :=
    List.map_congr_left fun network member => effect.nameAt_held wf found member
  cases effect with
  | ignored harmless => contradiction
  | @requested _ ctx _ _ result core _ found effect same replied =>
    obtain ⟨names, session, held⟩ := follows.held_eq found
    have told := statusesTo_append replied peer
    rw [follows.statuses peer, List.append_assoc] at told
    simp only [true_and] at told
    rw [Session.act_request session]
    cases effect with
    | malformed rejected =>
      rw [Session.ask_malformed rejected]
      refine ⟨?_, ?_, [], rfl, ?_⟩
      · rw [heldNames_eq_some (same.peers ▸ found), kept found, held]
        simp [Session.tell, session]
      · rw [told, replyStatus_error (by simp)]
        rfl
      · simp [same.registered]
    | @acquire name key _ _ _ requested created ran effect =>
      exact effect.moved wf offered distinct (uniform name · requested) found created requested held (kept found)
        same session told

/-- An action moves the session of the acting peer. -/
private theorem StepEffect.acting_session {action : Action} (acts : event.action = some (peer, action))
    (effect : StepEffect env broker event next) (wf : WellFormed env broker) (offered : broker.Offered creatable)
    (distinct : env.DistinctKeys) (uniform : Uniform env creatable broker event) (follows : Follows start broker sessions) :
    Moved env start broker next peer (sessions peer) ((sessions peer).act (env.policy creatable) action) := by
  unfold Event.action at acts
  split at acts
  · cases acts
    cases effect with
    | ignored harmless => contradiction
    | accepted absent =>
      refine ⟨?_, ?_, [], rfl, by simp⟩
      · rw [heldNames_eq_some (by rw [Broker.welcome_peers, AList.lookup_insert])]
        rfl
      · rw [statusesTo_congr (Broker.welcome_sent ..), follows.statuses peer]
        rfl
  · cases acts
    exact effect.requested_session wf offered distinct uniform follows
  · cases acts
    cases effect with
    | ignored harmless => contradiction
    | disconnected found coherent timed emptied others released =>
      refine ⟨?_, ?_, [], rfl, ?_⟩
      · simp [Broker.heldNames, others, Session.act]
      · have sent : (Broker.farewell _ peer).sent = broker.sent := (Broker.farewell_sent ..).trans released.sent
        rw [statusesTo_congr sent, follows.statuses peer]
        rfl
      · intro key
        rw [Broker.farewell_registered, Broker.registered, released.registry]
        simp [Broker.registered]
  · contradiction

/-- Every step is a move of the acting session, or of none. -/
theorem StepEffect.follows (effect : StepEffect env broker event next) (wf : WellFormed env broker)
    (offered : broker.Offered creatable) (distinct : env.DistinctKeys) (uniform : Uniform env creatable broker event)
    (follows : Follows start broker sessions) :
    Follows start next
      (event.action.elim sessions (Machine.deliver (Session.act (env.policy creatable)) sessions)) := by
  have still (receiver : Connection) (elsewhere : ∀ action, event.action ≠ some (receiver, action)) :
      next.heldNames receiver = (sessions receiver).held.map (·.map some) ∧
        next.statusesTo receiver = start.statusesTo receiver ++ (sessions receiver).statuses := by
    rw [effect.bystander_names wf elsewhere, (effect.bystander wf elsewhere).2]
    exact ⟨follows.held receiver, follows.statuses receiver⟩
  cases acts : event.action with
  | none =>
    have everyone (receiver : Connection) := still receiver (by simp [acts])
    exact ⟨fun receiver => (everyone receiver).1, fun receiver => (everyone receiver).2⟩
  | some label =>
    obtain ⟨actor, action⟩ := label
    have moved := effect.acting_session acts wf offered distinct uniform follows
    have everyone (receiver : Connection) :
        next.heldNames receiver = ((Machine.deliver (Session.act (env.policy creatable)) sessions
          (actor, action)) receiver).held.map (·.map some) ∧
        next.statusesTo receiver = start.statusesTo receiver ++
          ((Machine.deliver (Session.act (env.policy creatable)) sessions (actor, action)) receiver).statuses := by
      by_cases same : receiver = actor
      · subst same
        rw [Machine.deliver, Function.update_self]
        exact ⟨moved.held, moved.statuses⟩
      · rw [Machine.deliver, Function.update_of_ne same]
        exact still receiver (by simp [acts, Ne.symm same])
    exact ⟨fun receiver => (everyone receiver).1, fun receiver => (everyone receiver).2⟩

/-- While no timer fires, the registry grows by what the sessions are granted. -/
theorem StepEffect.registers (effect : StepEffect env broker event next) (wf : WellFormed env broker)
    (offered : broker.Offered creatable) (distinct : env.DistinctKeys) (uniform : Uniform env creatable broker event)
    (untimed : ∀ source, event ≠ .timer source) (follows : Follows start broker sessions)
    (registers : Registers env start broker sessions) :
    Registers env start next
      (event.action.elim sessions (Machine.deliver (Session.act (env.policy creatable)) sessions)) := by
  cases acts : event.action with
  | none =>
    cases effect with
    | ignored harmless => exact registers
    | accepted | requested | disconnected => contradiction
    | removed => exact absurd rfl (untimed _)
  | some label =>
    obtain ⟨actor, action⟩ := label
    obtain ⟨gained, grown, registered⟩ :=
      (effect.acting_session acts wf offered distinct uniform follows).gained
    have own : (Machine.deliver (Session.act (env.policy creatable)) sessions (actor, action)) actor =
        (sessions actor).act (env.policy creatable) action := Function.update_self ..
    have other {receiver : Connection} (different : receiver ≠ actor) :
        (Machine.deliver (Session.act (env.policy creatable)) sessions (actor, action)) receiver =
          sessions receiver := Function.update_of_ne different ..
    intro key
    rw [registered key, registers key, or_assoc, Option.elim_some]
    refine or_congr_right ?_
    constructor
    · rintro (⟨receiver, name, member, created⟩ | ⟨name, member, created⟩)
      · by_cases same : receiver = actor
        · subst same
          exact ⟨receiver, name, by rw [own, grown]; exact List.mem_append_right _ member, created⟩
        · exact ⟨receiver, name, by rw [other same]; exact member, created⟩
      · exact ⟨actor, name, by rw [own, grown]; exact List.mem_append_left _ member, created⟩
    · rintro ⟨receiver, name, member, created⟩
      by_cases same : receiver = actor
      · subst same
        rw [own, grown] at member
        rcases List.mem_append.mp member with new | old
        · exact Or.inr ⟨name, new, created⟩
        · exact Or.inl ⟨receiver, name, old, created⟩
      · rw [other same] at member
        exact Or.inl ⟨receiver, name, member, created⟩

/-- The sessions at a chosen start: the names held, and nothing granted or told yet. -/
def sessionsAt (start : Broker Key) (peer : Connection) : Session :=
  { held := (start.heldNames peer).map List.reduceOption }

theorem WellFormed.follows_start (wf : WellFormed env start) : Follows start start (sessionsAt start) := by
  refine ⟨?_, fun peer => by simp [sessionsAt]⟩
  intro peer
  cases found : start.peers.lookup peer with
  | none => simp [sessionsAt, Broker.heldNames, found]
  | some ctx =>
    have named : ∀ entry ∈ ctx.networks.map start.nameAt, ∃ name, entry = some name := by
      intro entry member
      obtain ⟨network, held, rfl⟩ := List.mem_map.mp member
      obtain ⟨key, registered⟩ := wf.live_registered network (wf.held_live peer ctx found network held)
      obtain ⟨value, name, live, stored, _⟩ := wf.registered_named key network registered
      exact ⟨name, by simp [Broker.nameAt, live, stored]⟩
    simp only [sessionsAt, heldNames_eq_some found, Option.map_some, Option.some.injEq]
    generalize ctx.networks.map start.nameAt = entries at named
    induction entries with
    | nil => rfl
    | cons entry rest ih =>
      obtain ⟨name, rfl⟩ := named entry (List.mem_cons_self ..)
      rw [List.reduceOption_cons_of_some, List.map_cons,
        ← ih fun other member => named other (List.mem_cons_of_mem _ member)]

omit [DecidableEq Key] in
theorem Broker.Offered.initial (creatable : CString → Bool) : ({} : Broker Key).Offered creatable := by
  simp [Broker.Offered]

/-- A run in which creation depends on the name only keeps every live network creatable. -/
theorem Broker.Offered.run (offered : broker.Offered creatable) (wf : WellFormed env broker)
    {events : List Event} (uniform : Machine.Along (step env) (Uniform env creatable) broker events)
    (ran : Machine.run (step env) broker events = some next) : next.Offered creatable := by
  have both : WellFormed env next ∧ next.Offered creatable := by
    refine Machine.run_invariant_along (fun state => WellFormed env state ∧ state.Offered creatable) ?_
      ⟨wf, offered⟩ uniform ran
    rintro state event after ⟨stateWf, stateOffered⟩ allowed stepped
    have effect := step_effect stateWf stepped
    exact ⟨stateWf.effect effect, stateOffered.effect stateWf effect allowed⟩
  exact both.2

end Simulation

end VmnetBroker
