import VmnetBroker.Proofs.Session
import VmnetBroker.Soundness.Accounting

/-! # Events of different peers commute

Every peer has a sequence of its own actions, and an interleaving is an order in which the broker
receives all of them. The intermediate states of two interleavings differ in counts and timers. Both
follow the same family of sessions, and a state between two events is determined by the sessions up
to the addresses of the networks created on the way.
-/

namespace VmnetBroker

variable {Key : Type} [DecidableEq Key] {env : Environment Key} {creatable : CString → Bool}

/-- The actions of one connection are in order: it connects, asks and leaves. -/
def Legal : Bool → List Action → Prop
  | _, [] => True
  | false, .connect :: actions => Legal true actions
  | true, .request _ :: actions => Legal true actions
  | true, .disconnect :: actions => Legal false actions
  | _, _ => False

/-- Every name that the actions ask for is valid UTF-8. -/
def ValidNames (actions : List Action) : Prop :=
  ∀ message name, .request message ∈ actions → message.acquires = some name → name.ValidUtf8

/-- The address that an allocation in the handler of the event would return. -/
def Event.calloc : Event → Option Address
  | .peer _ _ calls => calls.calloc
  | _ => none

/-- The handler of the event creates the dispatch sources it asks for. -/
def Event.createsSources : Event → Bool
  | .peer _ _ calls => calls.dispatchSourceCreate
  | _ => true

/-- The allocator returns no address that is in use. -/
def Allocates (broker : Broker Key) (event : Event) : Prop := ∀ network ∈ event.calloc, network ∉ broker.heap

omit [DecidableEq Key] in
instance (broker : Broker Key) (event : Event) : Decidable (Allocates broker event) :=
  inferInstanceAs (Decidable (∀ network ∈ event.calloc, network ∉ broker.heap))

/-- The actions of one connection, in the order of the events. -/
def actionsOf (peer : Connection) (events : List Event) : List Action :=
  ((events.filterMap Event.action).filter (·.1 = peer)).map (·.2)

/-- The events are those of the sequences, in some order that keeps each sequence. -/
structure Interleaving (env : Environment Key) (creatable : CString → Bool) (start : Broker Key)
    (sequences : Connection → List Action) (events : List Event) : Prop where
  ofPeers : ∀ event ∈ events, event.action.isSome = true
  ordered : ∀ peer, actionsOf peer events = sequences peer
  uniform : Machine.Along (step env) (Uniform env creatable) start events
  allocates : Machine.Along (step env) Allocates start events

/-- The same state, up to the addresses of the networks created since the start. -/
structure Broker.Equivalent (start left right : Broker Key) : Prop where
  registered : ∀ key, key ∈ left.registered ↔ key ∈ right.registered
  networks : ∀ key first second, left.registered.lookup key = some first →
    right.registered.lookup key = some second → ∃ value other, left.heap.lookup first = some value ∧
      right.heap.lookup second = some other ∧ value.name = other.name ∧ value.peers = other.peers ∧
      value.idleTimer.isSome = other.idleTimer.isSome ∧
      (left.Armed (.removeNetwork first) ↔ right.Armed (.removeNetwork second))
  kept : ∀ key network, start.registered.lookup key = some network →
    left.registered.lookup key = some network ∧ right.registered.lookup key = some network
  held : ∀ peer, left.heldNames peer = right.heldNames peer
  connectedPeers : left.connectedPeers = right.connectedPeers
  balance : (left.transactionBegins : ℤ) - left.transactionEnds =
    (right.transactionBegins : ℤ) - right.transactionEnds
  idleTimer : left.idleTimer.isSome = right.idleTimer.isSome
  armed : left.Armed .shutdown ↔ right.Armed .shutdown
  statuses : ∀ peer, left.statusesTo peer = right.statusesTo peer

section Runs

variable {start broker next final : Broker Key} {event : Event} {events : List Event} {peer : Connection}
  {sequences : Connection → List Action} {sessions : Connection → Session}

theorem Event.not_timer (acts : event.action.isSome = true) (source : Object) : event ≠ .timer source := by
  rintro rfl
  contradiction

/-- What a state and a family of sessions share along a run without timers. -/
structure Mirrors (env : Environment Key) (creatable : CString → Bool) (start broker : Broker Key)
    (sessions : Connection → Session) : Prop where
  wf : WellFormed env broker
  offered : broker.Offered creatable
  follows : Follows start broker sessions
  registers : Registers env start broker sessions
  kept : ∀ key network, start.registered.lookup key = some network → broker.registered.lookup key = some network

theorem Mirrors.initial (wf : WellFormed env start) (offered : start.Offered creatable) :
    Mirrors env creatable start start (sessionsAt start) where
  wf := wf
  offered := offered
  follows := wf.follows_start
  registers key := by simp [sessionsAt]
  kept _ _ found := found

/-- One event of a peer moves its session and keeps the rest in step. -/
theorem Mirrors.step (mirrors : Mirrors env creatable start broker sessions) (distinct : env.DistinctKeys)
    (acts : event.action.isSome = true) (uniform : Uniform env creatable broker event)
    (stepped : VmnetBroker.step env broker event = some next) :
    Mirrors env creatable start next
      (event.action.elim sessions (Machine.deliver (Session.act (env.policy creatable)) sessions)) := by
  have effect := step_effect mirrors.wf stepped
  refine ⟨mirrors.wf.effect effect, mirrors.offered.effect mirrors.wf effect uniform,
    effect.follows mirrors.wf mirrors.offered distinct uniform mirrors.follows,
    effect.registers mirrors.wf mirrors.offered distinct uniform (Event.not_timer acts) mirrors.follows
      mirrors.registers, ?_⟩
  intro key network found
  rcases effect.keeps mirrors.wf (mirrors.kept key network found) with ⟨same, _⟩ | ⟨source, _, fired, _⟩
  · exact same
  · exact absurd fired (Event.not_timer acts source)

/-- An interleaving ends in the sessions that its actions lead to. -/
theorem Interleaving.mirrors (interleaving : Interleaving env creatable start sequences events)
    (distinct : env.DistinctKeys) (wf : WellFormed env start) (offered : start.Offered creatable)
    (ran : Machine.run (VmnetBroker.step env) start events = some final) :
    Mirrors env creatable start final ((events.filterMap Event.action).foldl
      (Machine.deliver (Session.act (env.policy creatable))) (sessionsAt start)) := by
  have ofPeers : Machine.Along (VmnetBroker.step env) (fun _ event => event.action.isSome = true) start events :=
    .of_forall fun event member _ => interleaving.ofPeers event member
  refine Machine.run_simulation Event.action (Machine.deliver (Session.act (env.policy creatable)))
    (Mirrors env creatable start) ?_ (.initial wf offered) (ofPeers.and interleaving.uniform) ran
  rintro state event after abstract mirrors ⟨acts, uniform⟩ stepped
  exact mirrors.step distinct acts uniform stepped

end Runs

section Determined

variable {start broker left right : Broker Key} {peer : Connection} {network : Address} {name : CString} {key : Key}
  {sessions : Connection → Session}

omit [DecidableEq Key] in
theorem mem_peers_iff : peer ∈ broker.peers ↔ (broker.heldNames peer).isSome = true := by
  rw [Broker.heldNames, Option.isSome_map, AList.lookup_isSome]

omit [DecidableEq Key] in
/-- The same names held by the same connections. -/
theorem keys_perm_of_heldNames (held : ∀ peer, left.heldNames peer = right.heldNames peer) :
    left.peers.keys.Perm right.peers.keys := by
  refine (List.perm_ext_iff_of_nodup left.peers.keys_nodup right.peers.keys_nodup).mpr fun peer => ?_
  rw [← AList.mem_keys, ← AList.mem_keys, mem_peers_iff, mem_peers_iff, held peer]

/-- The owners of a registered network are the peers that hold its name. -/
theorem WellFormed.owners_eq (wf : WellFormed env broker) (distinct : env.DistinctKeys)
    (created : env.createWithCString name = some key) (registered : broker.registered.lookup key = some network) :
    broker.owners network = broker.peers.keys.countP fun peer => (broker.heldNames peer).any (some name ∈ ·) := by
  rw [AList.keys, List.keys, List.countP_map]
  refine List.countP_congr fun entry member => ?_
  have found : broker.peers.lookup entry.1 = some entry.2 := List.mem_dlookup broker.peers.nodupKeys member
  have owns := wf.owns_iff distinct created found
  rw [← mem_nameAt_iff found] at owns
  simp only [Function.comp_apply, heldNames_eq_some found, Option.any_some, decide_eq_true_eq, owns, registered,
    Option.some.injEq, exists_eq_right']

/-- The sessions determine the state, up to the addresses of new networks. -/
theorem Mirrors.equivalent (distinct : env.DistinctKeys) (first : Mirrors env creatable start left sessions)
    (second : Mirrors env creatable start right sessions)
    (began : 0 < left.transactionBegins ↔ 0 < right.transactionBegins) : start.Equivalent left right := by
  have held (peer : Connection) : left.heldNames peer = right.heldNames peer :=
    (first.follows.held peer).trans (second.follows.held peer).symm
  have keys := keys_perm_of_heldNames held
  have connectedPeers : left.connectedPeers = right.connectedPeers := by
    have length := keys.length_eq
    simp only [AList.keys, List.keys, List.length_map] at length
    rw [first.wf.connected, second.wf.connected, length]
  have idleTimer : left.idleTimer.isSome = right.idleTimer.isSome := by
    rw [Bool.eq_iff_iff, first.wf.scheduled, second.wf.scheduled, connectedPeers, began]
  refine ⟨?_, ?_, ?_, held, connectedPeers, ?_, idleTimer, ?_, ?_⟩
  · intro key
    rw [first.registers key, second.registers key]
  · intro key mine yours registered registered'
    obtain ⟨value, name, live, named, created⟩ := first.wf.registered_named key mine registered
    obtain ⟨other, name', live', named', created'⟩ := second.wf.registered_named key yours registered'
    obtain rfl := distinct _ _ key created created'
    have owners : left.owners mine = right.owners yours := by
      rw [first.wf.owners_eq distinct created registered, second.wf.owners_eq distinct created registered']
      simp only [held]
      exact keys.countP_eq _
    have peers : value.peers = other.peers := by
      rw [first.wf.counted mine value live, second.wf.counted yours other live', owners]
    have timers : value.idleTimer.isSome = other.idleTimer.isSome := by
      rw [Bool.eq_iff_iff, first.wf.timed mine value live, second.wf.timed yours other live', peers]
    refine ⟨value, other, live, live', named.trans named'.symm, peers, timers, ?_⟩
    rw [first.wf.armed_removeNetwork live, second.wf.armed_removeNetwork live', timers]
  · exact fun key network found => ⟨first.kept key network found, second.kept key network found⟩
  · have one := first.wf.balanced
    have two := second.wf.balanced
    rw [connectedPeers] at one
    omega
  · rw [first.wf.armed_shutdown, second.wf.armed_shutdown, idleTimer]
  · intro peer
    rw [first.follows.statuses peer, second.follows.statuses peer]

end Determined

section Completion

variable {start broker next final : Broker Key} {event : Event} {events : List Event} {peer actor : Connection}
  {action : Action}

theorem actionsOf_cons_self (acts : event.action = some (actor, action)) :
    actionsOf actor (event :: events) = action :: actionsOf actor events := by
  simp [actionsOf, List.filterMap_cons_some acts]

theorem actionsOf_cons_other (acts : event.action = some (actor, action)) (different : peer ≠ actor) :
    actionsOf peer (event :: events) = actionsOf peer events := by
  simp [actionsOf, List.filterMap_cons_some acts, Ne.symm different]

namespace Legal

variable {connected : Bool} {actions : List Action} {message : Message}

theorem connect (legal : Legal connected (.connect :: actions)) : connected = false ∧ Legal true actions := by
  cases connected with
  | false => exact ⟨rfl, legal⟩
  | true => contradiction

theorem request (legal : Legal connected (.request message :: actions)) : connected = true ∧ Legal true actions := by
  cases connected with
  | false => contradiction
  | true => exact ⟨rfl, legal⟩

theorem disconnect (legal : Legal connected (.disconnect :: actions)) : connected = true ∧ Legal false actions := by
  cases connected with
  | false => contradiction
  | true => exact ⟨rfl, legal⟩

omit [DecidableEq Key] in
/-- An action that is next in a legal sequence can happen. -/
theorem enabled (acts : event.action = some (actor, action))
    (legal : Legal (decide (actor ∈ broker.peers)) (action :: actions)) (fresh : Allocates broker event) :
    Enabled broker event := by
  unfold Event.action at acts
  split at acts
  · cases acts
    exact of_decide_eq_false legal.connect.1
  · cases acts
    exact ⟨of_decide_eq_true legal.request.1, fresh⟩
  · cases acts
    exact ⟨of_decide_eq_true legal.disconnect.1, fresh⟩
  · contradiction

end Legal

/-- A legal action leaves a legal rest. -/
theorem StepEffect.legal {actions : List Action} (acts : event.action = some (actor, action))
    (wf : WellFormed env broker) (effect : StepEffect env broker event next)
    (legal : Legal (decide (actor ∈ broker.peers)) (action :: actions)) :
    Legal (decide (actor ∈ next.peers)) actions := by
  have keys : actor ∈ next.peers ↔ actor ∈ trackConnection broker.peers.keys event :=
    (effect.tracked wf).1.mem_iff
  unfold Event.action at acts
  split at acts
  · cases acts
    rw [decide_eq_true (keys.mpr (List.mem_cons_self ..))]
    exact legal.connect.2
  · cases acts
    have member : actor ∈ broker.peers := of_decide_eq_true legal.request.1
    rw [decide_eq_true (keys.mpr member)]
    exact legal.request.2
  · cases acts
    have left : actor ∉ next.peers := by
      rw [keys]
      exact broker.peers.keys_nodup.not_mem_erase
    rw [decide_eq_false left]
    exact legal.disconnect.2
  · contradiction

/-- An action of a peer does not end the process. -/
theorem step_of_action (wf : WellFormed env broker) (acts : event.action = some (actor, action))
    (valid : ValidNames (action :: actionsOf actor events)) (sources : event.createsSources = true)
    (enabled : Enabled broker event) : ∃ next, step env broker event = some next := by
  have effect := outcome_effect wf enabled
  cases result : outcome env broker event with
  | running next => exact ⟨next, step_eq_some.mpr ⟨enabled, result⟩⟩
  | exited exit after =>
    rw [result] at effect
    cases effect with
    | shutdown stops =>
      unfold Event.Stops at stops
      split at stops <;> contradiction
    | listenerFailed => contradiction
  | crashed fault =>
    rw [result] at effect
    cases effect with
    | nullKey requested invalid =>
      cases acts
      exact absurd (valid _ _ (List.mem_cons_self ..) requested) invalid
    | sourceCreateFailed uncreated =>
      simp [Event.createsSources, uncreated] at sources

/-- Legal sequences run to their end in any order. -/
theorem run_completes (wf : WellFormed env broker) (ofPeers : ∀ event ∈ events, event.action.isSome = true)
    (legal : ∀ peer, Legal (decide (peer ∈ broker.peers)) (actionsOf peer events))
    (valid : ∀ peer, ValidNames (actionsOf peer events))
    (allocates : Machine.Along (step env) Allocates broker events)
    (sources : ∀ event ∈ events, event.createsSources = true) :
    ∃ final, Machine.run (step env) broker events = some final := by
  induction events generalizing broker with
  | nil => exact ⟨broker, rfl⟩
  | cons event events ih =>
    obtain ⟨⟨actor, action⟩, acts⟩ := Option.isSome_iff_exists.mp (ofPeers event (List.mem_cons_self ..))
    have own := legal actor
    have names := valid actor
    rw [actionsOf_cons_self acts] at own names
    obtain ⟨next, stepped⟩ := step_of_action wf acts names (sources event (List.mem_cons_self ..))
      (own.enabled acts allocates.1)
    have effect := step_effect wf stepped
    have rest : ∃ final, Machine.run (step env) next events = some final := by
      refine ih (wf.effect effect) (fun other member => ofPeers other (List.mem_cons_of_mem _ member)) ?_ ?_
        (allocates.tail stepped) (fun other member => sources other (List.mem_cons_of_mem _ member))
      · intro peer
        by_cases same : peer = actor
        · subst same
          exact effect.legal acts wf own
        · have kept : next.peers.lookup peer = broker.peers.lookup peer :=
            (effect.bystander wf (by simp [acts, Ne.symm same])).1
          have still := legal peer
          rw [actionsOf_cons_other acts same] at still
          simpa only [← AList.lookup_isSome, kept] using still
      · intro peer message name member
        by_cases same : peer = actor
        · subst same
          exact names message name (List.mem_cons_of_mem _ member)
        · rw [← actionsOf_cons_other acts same] at member
          exact valid peer message name member
    obtain ⟨final, ran⟩ := rest
    exact ⟨final, by rw [Machine.run_cons, stepped]; exact ran⟩

end Completion

section Interleavings

variable {start final final' : Broker Key} {history events events' : List Event}
  {sequences : Connection → List Action}

/-- A connection is accepted when some peer connects. -/
theorem accepted_iff : Accepted events ↔ ∃ peer, .connect ∈ actionsOf peer events := by
  refine exists_congr fun peer => ?_
  simp only [actionsOf, List.mem_map, List.mem_filter, List.mem_filterMap, decide_eq_true_eq]
  constructor
  · exact fun member => ⟨(peer, .connect), ⟨⟨_, member, rfl⟩, rfl⟩, rfl⟩
  · rintro ⟨⟨sender, action⟩, ⟨⟨event, member, acts⟩, rfl⟩, rfl⟩
    unfold Event.action at acts
    split at acts
    · cases acts
      exact member
    · cases acts
    · cases acts
    · cases acts

/-- Interleavings of the same sequences end in equivalent states. -/
theorem Interleaving.equivalent (distinct : env.DistinctKeys) (reached : run env history = some start)
    (uniform : Machine.Along (step env) (Uniform env creatable) {} history)
    (left : Interleaving env creatable start sequences events)
    (right : Interleaving env creatable start sequences events')
    (ran : Machine.run (step env) start events = some final)
    (ran' : Machine.run (step env) start events' = some final') : start.Equivalent final final' := by
  have wf : WellFormed env start := Reachable.wellFormed ⟨history, reached⟩
  have offered : start.Offered creatable := Broker.Offered.run (.initial creatable) (.initial env) uniform reached
  have same (peer : Connection) : actionsOf peer events = actionsOf peer events' :=
    (left.ordered peer).trans (right.ordered peer).symm
  have first := left.mirrors distinct wf offered ran
  have second := right.mirrors distinct wf offered ran'
  rw [← Machine.foldl_deliver_congr _ same] at second
  refine first.equivalent distinct second ?_
  have accepted : Accepted events ↔ Accepted events' := by simp only [accepted_iff, same]
  rw [(tracked_run (Machine.run_append_of_run reached ran)).2,
    (tracked_run (Machine.run_append_of_run reached ran')).2]
  simp only [Accepted, List.mem_append, exists_or] at accepted ⊢
  rw [accepted]

/-- From any reachable state, two interleavings of the same legal sequences end in the same state up to the
addresses of new networks, and with the same statuses for every peer. An interleaving runs to its end
unless an assertion on a new dispatch source stops it. -/
theorem events_of_peers_commute (distinct : env.DistinctKeys) (reached : run env history = some start)
    (uniform : Machine.Along (step env) (Uniform env creatable) {} history)
    (legal : ∀ peer, Legal (decide (peer ∈ start.peers)) (sequences peer))
    (valid : ∀ peer, ValidNames (sequences peer))
    (left : Interleaving env creatable start sequences events)
    (right : Interleaving env creatable start sequences events') :
    (∀ final final', Machine.run (step env) start events = some final →
      Machine.run (step env) start events' = some final' → start.Equivalent final final') ∧
    ((∀ event ∈ events ++ events', event.createsSources = true) →
      ∃ final final', Machine.run (step env) start events = some final ∧
        Machine.run (step env) start events' = some final') := by
  have wf : WellFormed env start := Reachable.wellFormed ⟨history, reached⟩
  refine ⟨fun final final' ran ran' => left.equivalent distinct reached uniform right ran ran', ?_⟩
  intro sources
  have completes {events : List Event} (interleaving : Interleaving env creatable start sequences events)
      (created : ∀ event ∈ events, event.createsSources = true) :
      ∃ final, Machine.run (step env) start events = some final := by
    refine run_completes wf interleaving.ofPeers ?_ ?_ interleaving.allocates created
    · exact fun peer => (interleaving.ordered peer).symm ▸ legal peer
    · exact fun peer => (interleaving.ordered peer).symm ▸ valid peer
  obtain ⟨final, ran⟩ := completes left fun event member => sources event (List.mem_append_left _ member)
  obtain ⟨final', ran'⟩ := completes right fun event member => sources event (List.mem_append_right _ member)
  exact ⟨final, final', ran, ran'⟩

/-- The holder of a network leaves before another peer comes. -/
def oneByOne : List Event :=
  [.peer 2 .connectionInvalid {}, .listener (.connection 3),
    .peer 3 (.dictionary (acquireRequest (.ofString "host"))) { calloc := some 32 },
    .peer 3 (.dictionary (acquireRequest (.ofString "shared"))) { calloc := some 48 }]

/-- The same actions, with both peers connected for a while. -/
def overlapping : List Event :=
  [.listener (.connection 3),
    .peer 3 (.dictionary (acquireRequest (.ofString "host"))) { calloc := some 64 },
    .peer 2 .connectionInvalid {},
    .peer 3 (.dictionary (acquireRequest (.ofString "shared"))) { calloc := some 80 }]

/-- The sequences that both orders interleave. -/
def holderAndNewcomer (peer : Connection) : List Action :=
  if peer = 2 then [.disconnect]
  else if peer = 3 then
    [.connect, .request (acquireRequest (.ofString "host")), .request (acquireRequest (.ofString "shared"))]
  else []

theorem events_of_peers_commute_overlapping : ∃ start final final' : Broker (List UInt8),
    run builtinEnvironment addressReuse = some start ∧
    Machine.run (step builtinEnvironment) start oneByOne = some final ∧
    Machine.run (step builtinEnvironment) start overlapping = some final' ∧ start.Equivalent final final' := by
  have checked : (run builtinEnvironment addressReuse).map (fun start => (start.peers.keys,
      decide (Machine.Along (step builtinEnvironment) Allocates start oneByOne),
      decide (Machine.Along (step builtinEnvironment) Allocates start overlapping))) = some ([2], true, true) := by
    decide +kernel
  obtain ⟨start, reached, checks⟩ := Option.map_eq_some_iff.mp checked
  obtain ⟨keys, fresh, fresh'⟩ : _ ∧ _ ∧ _ := by simpa using checks
  have cases (peer : ℕ) : peer = 2 ∨ peer = 3 ∨ 2 ≠ peer ∧ 3 ≠ peer := by omega
  have legal (peer : Connection) : Legal (decide (peer ∈ start.peers)) (holderAndNewcomer peer) := by
    simp only [AList.mem_keys, keys, List.mem_singleton]
    rcases cases peer with rfl | rfl | ⟨holder, newcomer⟩
    · trivial
    · trivial
    · simp [holderAndNewcomer, Ne.symm holder, Ne.symm newcomer, Legal]
  have valid (peer : Connection) : ValidNames (holderAndNewcomer peer) := by
    rcases cases peer with rfl | rfl | ⟨holder, newcomer⟩
    · simp [ValidNames, holderAndNewcomer]
    · intro message name member requested
      simp only [holderAndNewcomer, Nat.reduceEqDiff, if_true, if_false, List.mem_cons, Action.request.injEq,
        reduceCtorEq, List.not_mem_nil, or_false, false_or] at member
      rcases member with rfl | rfl
      · obtain rfl : CString.ofString "host" = name := Option.some.inj requested
        decide
      · obtain rfl : CString.ofString "shared" = name := Option.some.inj requested
        decide
    · simp [ValidNames, holderAndNewcomer, Ne.symm holder, Ne.symm newcomer]
  have left : Interleaving builtinEnvironment (fun _ => true) start holderAndNewcomer oneByOne := by
    refine ⟨by decide, ?_, Event.uniform_of_createsAny (by decide), fresh⟩
    intro peer
    rcases cases peer with rfl | rfl | ⟨holder, newcomer⟩
    · rfl
    · rfl
    · simp [actionsOf, oneByOne, Event.action, holderAndNewcomer, holder, newcomer, Ne.symm holder, Ne.symm newcomer]
  have right : Interleaving builtinEnvironment (fun _ => true) start holderAndNewcomer overlapping := by
    refine ⟨by decide, ?_, Event.uniform_of_createsAny (by decide), fresh'⟩
    intro peer
    rcases cases peer with rfl | rfl | ⟨holder, newcomer⟩
    · rfl
    · rfl
    · simp [actionsOf, overlapping, Event.action, holderAndNewcomer, holder, newcomer, Ne.symm holder,
        Ne.symm newcomer]
  obtain ⟨equivalent, completes⟩ := events_of_peers_commute builtinEnvironment_distinctKeys reached
    (Event.uniform_of_createsAny (by decide)) legal valid left right
  obtain ⟨final, final', ran, ran'⟩ := completes (by decide)
  exact ⟨start, final, final', reached, ran, ran', equivalent final final' ran ran'⟩

end Interleavings

end VmnetBroker
