import VmnetBroker.Proofs.Session
import VmnetBroker.Soundness.Ownership

/-! # Peers do not interfere

A connection is answered by its own requests alone. Two runs may differ in everything else: the
other peers, what is registered, which timers fired and which signals came. The answers are
those of one session under the policy of the table, so they are the same in both runs.
-/

namespace VmnetBroker

variable {Key : Type} [DecidableEq Key] {env : Environment Key} {creatable : CString → Bool}

/-- The request of a connection, when the event is one. -/
def Event.requestOf (peer : Connection) (event : Event) : Option Message :=
  match event.action with
  | some (sender, .request message) => if sender = peer then some message else none
  | _ => none

/-- The requests that a connection sends, in order. -/
def requests (peer : Connection) (events : List Event) : List Message := events.filterMap (·.requestOf peer)

/-- The names in the ownership array of a connection, after each of its requests. -/
def heldAfterRequests (env : Environment Key) (peer : Connection) :
    Broker Key → List Event → List (Option (List (Option CString)))
  | _, [] => []
  | broker, event :: events =>
    match step env broker event with
    | none => []
    | some next =>
      if (event.requestOf peer).isSome then next.heldNames peer :: heldAfterRequests env peer next events
      else heldAfterRequests env peer next events

/-- A run in which a connection is accepted and then stays, among any other events. -/
structure Conversation (env : Environment Key) (creatable : CString → Bool) (peer : Connection)
    (before after : List Event) (start final : Broker Key) : Prop where
  accepted : run env (before ++ [.listener (.connection peer)]) = some start
  ran : Machine.run (step env) start after = some final
  connected : ∀ event ∈ after, event.action ≠ some (peer, .disconnect)
  uniform : Machine.Along (step env) (Uniform env creatable) {} (before ++ [.listener (.connection peer)] ++ after)

/-- The session that a list of requests leads to. -/
def Session.asked (policy : CString → VmnetBrokerReturn) (session : Session) (messages : List Message) : Session :=
  messages.foldl (fun session message => session.act policy (.request message)) session

/-- The names held after each of a list of requests. -/
def Session.heldAfter (policy : CString → VmnetBrokerReturn) (session : Session) :
    List Message → List (Option (List CString))
  | [] => []
  | message :: messages =>
    let next := session.act policy (.request message)
    next.held :: next.heldAfter policy messages

section Conversation

variable {origin broker next start final : Broker Key} {event : Event} {peer : Connection}
  {sessions : Connection → Session} {names : List CString}

omit [DecidableEq Key] in
/-- A request keeps a connected session connected. -/
theorem Session.request_connected {session : Session} (policy : CString → VmnetBrokerReturn) (message : Message)
    (held : session.held = some names) : ∃ more, (session.act policy (.request message)).held = some more := by
  simp only [Session.act, held, Option.elim_some, Session.ask]
  split
  · exact ⟨names, held⟩
  · split
    · exact ⟨_, rfl⟩
    · exact ⟨names, held⟩

/-- The session of a connected peer moves by its requests only. -/
theorem StepEffect.own_session (effect : StepEffect env broker event next)
    (follows : Follows origin broker sessions) (held : (sessions peer).held = some names)
    (connected : event.action ≠ some (peer, .disconnect)) (policy : CString → VmnetBrokerReturn) :
    event.action.elim sessions (Machine.deliver (Session.act policy) sessions) peer =
      (event.requestOf peer).elim (sessions peer) fun message => (sessions peer).act policy (.request message) := by
  unfold Event.requestOf
  cases acts : event.action with
  | none => rfl
  | some label =>
    obtain ⟨actor, action⟩ := label
    rw [Option.elim_some, Machine.deliver]
    by_cases own : actor = peer
    · subst own
      rw [Function.update_self]
      cases action with
      | connect =>
        have present : broker.heldNames actor ≠ none := by simp [follows.held actor, held]
        unfold Event.action at acts
        split at acts
        · cases acts
          cases effect with
          | ignored harmless => contradiction
          | accepted absent =>
            rw [← AList.lookup_eq_none] at absent
            simp [Broker.heldNames, absent] at present
        · cases acts
        · cases acts
        · cases acts
      | request message => simp
      | disconnect => exact absurd acts connected
    · rw [Function.update_of_ne (Ne.symm own)]
      cases action <;> simp [own]

/-- A connected peer is answered as its session is. -/
theorem conversation_session (distinct : env.DistinctKeys) {events : List Event} (wf : WellFormed env broker)
    (offered : broker.Offered creatable) (follows : Follows origin broker sessions)
    (held : (sessions peer).held = some names)
    (connected : ∀ event ∈ events, event.action ≠ some (peer, .disconnect))
    (uniform : Machine.Along (step env) (Uniform env creatable) broker events)
    (ran : Machine.run (step env) broker events = some final) :
    final.statusesTo peer = origin.statusesTo peer ++
      ((sessions peer).asked (env.policy creatable) (requests peer events)).statuses ∧
    heldAfterRequests env peer broker events =
      ((sessions peer).heldAfter (env.policy creatable) (requests peer events)).map (·.map (·.map some)) := by
  induction events generalizing broker sessions names with
  | nil =>
    cases ran
    exact ⟨follows.statuses peer, rfl⟩
  | cons event events ih =>
    rw [Machine.run_cons] at ran
    obtain ⟨next, stepped, rest⟩ := Option.bind_eq_some_iff.mp ran
    have here : event ∈ event :: events := List.mem_cons_self ..
    have effect := step_effect wf stepped
    have moved := effect.own_session follows held (connected event here) (env.policy creatable)
    have followed := effect.follows wf offered distinct uniform.1 follows
    have later := fun more held => @ih next _ more (wf.effect effect)
      (offered.effect wf effect uniform.1) followed held
      (fun other member => connected other (List.mem_cons_of_mem _ member)) (uniform.tail stepped) rest
    rw [moved] at later
    cases asks : event.requestOf peer with
    | none =>
      rw [asks] at later
      have ignored : requests peer (event :: events) = requests peer events := List.filterMap_cons_none asks
      simp only [heldAfterRequests, stepped, asks, ignored]
      exact later names held
    | some message =>
      rw [asks] at later
      have asked : requests peer (event :: events) = message :: requests peer events :=
        List.filterMap_cons_some asks
      obtain ⟨more, still⟩ := Session.request_connected (env.policy creatable) message held
      obtain ⟨statuses, lists⟩ := later more still
      have names := followed.held peer
      rw [moved, asks] at names
      simp only [heldAfterRequests, stepped, asks, asked, Session.heldAfter, List.map_cons]
      exact ⟨statuses, List.cons_eq_cons.mpr ⟨names, lists⟩⟩

end Conversation

section TwoRuns

variable {peer other : Connection} {before before' after after' : List Event}
  {start start' final final' : Broker Key}

/-- The run of a conversation answers the requests as a session that starts with nothing held. -/
theorem Conversation.session (conversation : Conversation env creatable peer before after start final)
    (distinct : env.DistinctKeys) :
    final.statusesTo peer = start.statusesTo peer ++
      (Session.asked (env.policy creatable) { held := some [] } (requests peer after)).statuses ∧
    heldAfterRequests env peer start after = (Session.heldAfter (env.policy creatable) { held := some [] }
      (requests peer after)).map (·.map (·.map some)) := by
  have wf : WellFormed env start := Reachable.wellFormed ⟨_, conversation.accepted⟩
  obtain ⟨earlier, later⟩ := (Machine.along_append conversation.accepted).mp conversation.uniform
  have offered : start.Offered creatable :=
    Broker.Offered.run (.initial creatable) (.initial env) earlier conversation.accepted
  have empty : start.heldNames peer = some [] := by
    obtain ⟨middle, ran, stepped⟩ := Machine.run_concat_eq_some.mp conversation.accepted
    have middleWf : WellFormed env middle := Reachable.wellFormed ⟨_, ran⟩
    cases step_effect middleWf stepped with
    | ignored harmless => contradiction
    | accepted absent =>
      rw [heldNames_eq_some (by rw [Broker.welcome_peers, AList.lookup_insert])]
      rfl
  have fresh : sessionsAt start peer = { held := some [] } := by simp [sessionsAt, empty]
  have answered := conversation_session distinct wf offered wf.follows_start (by rw [fresh])
    conversation.connected later conversation.ran
  rwa [fresh] at answered

/-- Two runs with the same requests of a connection send it the same statuses, and leave it the same
names after each request. -/
theorem peers_do_not_interfere (distinct : env.DistinctKeys)
    (left : Conversation env creatable peer before after start final)
    (right : Conversation env creatable other before' after' start' final')
    (same : requests peer after = requests other after') :
    (∃ statuses, final.statusesTo peer = start.statusesTo peer ++ statuses ∧
      final'.statusesTo other = start'.statusesTo other ++ statuses) ∧
    heldAfterRequests env peer start after = heldAfterRequests env other start' after' := by
  obtain ⟨leftStatuses, leftHeld⟩ := left.session distinct
  obtain ⟨rightStatuses, rightHeld⟩ := right.session distinct
  rw [← same] at rightStatuses rightHeld
  exact ⟨⟨_, leftStatuses, rightStatuses⟩, leftHeld.trans rightHeld.symm⟩

/-- The events of one client, alone with the broker. -/
def alone : List Event :=
  [.peer 1 (.dictionary (acquireRequest (.ofString "shared"))) { calloc := some 16 },
    .peer 1 (.dictionary (acquireRequest (.ofString "host"))) { calloc := some 32 },
    .peer 1 (.dictionary (acquireRequest (.ofString "unknown"))) { calloc := some 48 }]

/-- The same requests, from another connection and among those of others. -/
def amongOthers : List Event :=
  [.peer 7 (.dictionary (acquireRequest (.ofString "shared"))) { calloc := some 64 },
    .signal, .listener (.connection 8),
    .peer 8 (.dictionary (acquireRequest (.ofString "host"))) { calloc := some 80 },
    .peer 7 (.dictionary (acquireRequest (.ofString "host"))) { calloc := some 96 },
    .peer 8 .connectionInvalid {},
    .peer 7 (.dictionary (acquireRequest (.ofString "unknown"))) { calloc := some 112 }]

theorem peers_do_not_interfere_amongOthers : ∃ start final start' final' : Broker (List UInt8),
    Conversation builtinEnvironment (fun _ => true) 1 [] alone start final ∧
    Conversation builtinEnvironment (fun _ => true) 7 addressReuse amongOthers start' final' ∧
    requests 1 alone = requests 7 amongOthers ∧
    heldAfterRequests builtinEnvironment 1 start alone =
      heldAfterRequests builtinEnvironment 7 start' amongOthers := by
  obtain ⟨start, accepted⟩ : ∃ start, run builtinEnvironment ([] ++ [.listener (.connection 1)]) = some start :=
    Option.isSome_iff_exists.mp (by decide +kernel)
  obtain ⟨start', accepted'⟩ : ∃ start, run builtinEnvironment
      (addressReuse ++ [.listener (.connection 7)]) = some start := Option.isSome_iff_exists.mp (by decide +kernel)
  have whole : (run builtinEnvironment (([] ++ [.listener (.connection 1)]) ++ alone)).isSome := by decide +kernel
  have whole' : (run builtinEnvironment ((addressReuse ++ [.listener (.connection 7)]) ++ amongOthers)).isSome := by
    decide +kernel
  obtain ⟨final, ended⟩ := Option.isSome_iff_exists.mp whole
  obtain ⟨final', ended'⟩ := Option.isSome_iff_exists.mp whole'
  obtain ⟨middle, first, ran⟩ := Machine.run_append_eq_some.mp ended
  obtain rfl := Option.some.inj (accepted.symm.trans first)
  obtain ⟨middle', first', ran'⟩ := Machine.run_append_eq_some.mp ended'
  obtain rfl := Option.some.inj (accepted'.symm.trans first')
  have left : Conversation builtinEnvironment (fun _ => true) 1 [] alone start final :=
    ⟨accepted, ran, by decide, Event.uniform_of_createsAny (by decide)⟩
  have right : Conversation builtinEnvironment (fun _ => true) 7 addressReuse amongOthers start' final' :=
    ⟨accepted', ran', by decide, Event.uniform_of_createsAny (by decide)⟩
  have same : requests 1 alone = requests 7 amongOthers := rfl
  obtain ⟨_, held⟩ := peers_do_not_interfere builtinEnvironment_distinctKeys left right same
  exact ⟨start, final, start', final', left, right, same, held⟩

end TwoRuns

end VmnetBroker
