import VmnetBroker.Soundness.Retention

/-! # A repeated acquire changes nothing

The second acquire of a name finds the network in the registry, its address in the ownership array
and no timer to cancel. Each of the three is due to what other operations keep: the name stays bound
to the network while a holder is connected, and an owned network has no timer. The answer is the
serialization of the first acquire, the state is the same, and one disconnect undoes all of them.
-/

namespace VmnetBroker

variable {Key : Type} [DecidableEq Key] {env : Environment Key} {broker next final gone : Broker Key}
  {event : Event} {peer : Connection} {ctx : BrokerContext} {network : Address} {value : Network} {key : Key}
  {name : CString} {serialization : Object} {message : Message} {calls : Calls}

/-- The events that deliver these requests of one peer. -/
def requestsOf (peer : Connection) (requests : List (Message × Calls)) : List Event :=
  requests.map fun (message, calls) => .peer peer (.dictionary message) calls

/-- Every request asks for this name, and the allocator hands out no address that is in use. -/
def AskAgain (broker : Broker Key) (name : CString) (requests : List (Message × Calls)) : Prop :=
  ∀ message calls, (message, calls) ∈ requests → message.acquires = some name ∧
    ∀ network ∈ calls.calloc, network ∉ broker.heap

/-- The replies that give this serialization to every request that wants one. -/
def repliesOf (peer : Connection) (serialization : Object) (requests : List (Message × Calls)) :
    List (Connection × Dictionary) :=
  requests.flatMap fun (message, _) =>
    message.replies peer (AList.singleton replyNetwork (.serialization serialization))

/-- The networks of the peer, and only they, lose one peer, and none is lost. -/
def Broker.Undoes (broker gone : Broker Key) (peer : Connection) : Prop :=
  ∀ ctx network value, broker.peers.lookup peer = some ctx → broker.heap.lookup network = some value →
    ∃ lowered, gone.heap.lookup network = some lowered ∧
      lowered.peers = value.peers - if network ∈ ctx.networks then 1 else 0

/-- A holder that asks for its name again owns the network already. -/
theorem Broker.Holds.acquireEffect (holds : broker.Holds peer key network serialization)
    (found : broker.peers.lookup peer = some ctx) {result : Option Object × Int32} {core : Broker Key}
    (effect : AcquireEffect env broker peer ctx name key calls 0 result core) :
    result = (some serialization, 0) ∧ core = broker := by
  obtain ⟨held, holding, member⟩ := holds.2.2
  obtain rfl := Option.some.inj (found.symm.trans holding)
  cases effect with
  | owned bound owned live returned =>
    obtain rfl := holds.serialization_eq bound live returned
    exact ⟨rfl, rfl⟩
  | shared bound unowned =>
    obtain rfl := Option.some.inj (bound.symm.trans holds.1)
    exact absurd member unowned
  | full unowned => exact absurd member (unowned network holds.1)
  | created unregistered | notFound unregistered | createFailure unregistered =>
    rw [holds.1] at unregistered
    contradiction

/-- One repeated acquire is granted, answered and leaves the state alone. -/
theorem Broker.Holds.again (holds : broker.Holds peer key network serialization) (wf : WellFormed env broker)
    (created : env.createWithCString name = some key) (requested : message.acquires = some name)
    (fresh : ∀ network ∈ calls.calloc, network ∉ broker.heap) :
    ∃ next, step env broker (.peer peer (.dictionary message) calls) = some next ∧
      granted env broker (.peer peer (.dictionary message) calls) = some (peer, name, serialization) ∧
      broker.Matches next ∧ next.sent = broker.sent ++ repliesOf peer serialization [(message, calls)] := by
  obtain ⟨held, holding, _⟩ := holds.2.2
  have enabled : Enabled broker (.peer peer (.dictionary message) calls) := ⟨AList.mem_of_lookup holding, fresh⟩
  have valid : ∀ other, message.acquires = some other → other.ValidUtf8 := by
    intro other asked
    obtain rfl := Option.some.inj (requested.symm.trans asked)
    exact (env.createWithCString_isSome name).mp (by rw [created]; rfl)
  obtain ⟨next, ctx, result, core, running, found, effect, same, replied⟩ := request_outcome wf enabled valid
  have stepped : step env broker (.peer peer (.dictionary message) calls) = some next :=
    step_eq_some.mpr ⟨enabled, running⟩
  refine ⟨next, stepped, ?_⟩
  cases effect with
  | malformed rejected => exact absurd (requested.symm.trans rejected) (by simp)
  | acquire asked keyed ran effect =>
    obtain rfl := Option.some.inj (requested.symm.trans asked)
    obtain rfl := Option.some.inj (created.symm.trans keyed)
    obtain ⟨rfl, rfl⟩ := holds.acquireEffect found effect
    refine ⟨?_, same, ?_⟩
    · simp only [granted, requested, ran]
    · simpa [repliesOf, replyBody] using replied

/-- Any number of repeated acquires, one after the other. -/
theorem Broker.Holds.repeated (requests : List (Message × Calls))
    (holds : broker.Holds peer key network serialization) (wf : WellFormed env broker)
    (created : env.createWithCString name = some key) (again : AskAgain broker name requests) :
    Machine.Along (step env) (fun state event => granted env state event = some (peer, name, serialization))
        broker (requestsOf peer requests) ∧
      ∃ after, Machine.run (step env) broker (requestsOf peer requests) = some after ∧ broker.Matches after ∧
        after.sent = broker.sent ++ repliesOf peer serialization requests := by
  induction requests generalizing broker with
  | nil => exact ⟨trivial, broker, rfl, .refl broker, by simp [repliesOf]⟩
  | cons request requests ih =>
    obtain ⟨message, calls⟩ := request
    obtain ⟨requested, fresh⟩ := again message calls (List.mem_cons_self ..)
    obtain ⟨next, stepped, grant, same, replied⟩ := holds.again wf created requested fresh
    have rest : AskAgain next name requests := by
      intro message calls member
      rw [same.heap]
      exact again message calls (List.mem_cons_of_mem _ member)
    obtain ⟨along, after, ran, matched, answered⟩ := ih (holds.of_matches same) (wf.step stepped) rest
    refine ⟨⟨grant, ?_⟩, after, ?_, same.trans matched, ?_⟩
    · rw [stepped]
      exact along
    · rw [requestsOf, List.map_cons, Machine.run_cons, stepped]
      exact ran
    · rw [answered, replied, List.append_assoc]
      simp [repliesOf]

/-- The invalidation of a connection lowers the count of each of its networks by one. -/
theorem Broker.Undoes.of_step (wf : WellFormed env broker)
    (stepped : step env broker (.peer peer .connectionInvalid calls) = some gone) : broker.Undoes gone peer := by
  intro ctx network value holding live
  cases step_effect wf stepped with
  | ignored harmless => contradiction
  | disconnected found coherent timed emptied others released =>
    obtain rfl := Option.some.inj (holding.symm.trans found)
    rw [Broker.farewell_heap]
    by_cases member : network ∈ ctx.networks
    · obtain ⟨timer, lowered⟩ := released.lowered network member value live
      exact ⟨_, lowered, by rw [if_pos member]⟩
    · exact ⟨value, (released.untouched network member).trans live, by rw [if_neg member, sub_zero]⟩

/-- The invalidation of a connection is handled unless a dispatch source cannot be created. -/
theorem disconnect_completes (wf : WellFormed env broker)
    (enabled : Enabled broker (.peer peer .connectionInvalid calls)) (created : calls.dispatchSourceCreate = true) :
    ∃ gone, step env broker (.peer peer .connectionInvalid calls) = some gone := by
  have effect := outcome_effect wf enabled
  generalize reached : outcome env broker (.peer peer .connectionInvalid calls) = after at effect
  cases effect with
  | running stepped => exact ⟨_, step_eq_some.mpr ⟨enabled, reached⟩⟩
  | shutdown stops => cases stops
  | sourceCreateFailed uncreated =>
    rw [created] at uncreated
    contradiction

/-- Once a peer was granted a name, every acquire of the name by this peer returns the same serialization
and changes nothing, as long as the peer is connected; its disconnect then counts once. -/
theorem acquire_is_idempotent {events later : List Event} (ran : run env events = some broker)
    (stepped : step env broker event = some next)
    (grant : granted env broker event = some (peer, name, serialization))
    (continued : Machine.run (step env) next later = some final)
    (connected : ∀ calls, .peer peer .connectionInvalid calls ∉ later) (requests : List (Message × Calls))
    (again : AskAgain final name requests) :
    Machine.Along (step env) (fun state event => granted env state event = some (peer, name, serialization))
        final (requestsOf peer requests) ∧
      ∃ after, Machine.run (step env) final (requestsOf peer requests) = some after ∧ final.Matches after ∧
        after.sent = final.sent ++ repliesOf peer serialization requests ∧
        (∀ calls gone, step env after (.peer peer .connectionInvalid calls) = some gone → final.Undoes gone peer) ∧
        ∀ calls, Enabled after (.peer peer .connectionInvalid calls) → calls.dispatchSourceCreate = true →
          ∃ gone, step env after (.peer peer .connectionInvalid calls) = some gone := by
  have wf : WellFormed env broker := Reachable.wellFormed ⟨events, ran⟩
  have nextWf := wf.step stepped
  have finalWf := nextWf.run continued
  obtain ⟨key, network, created, holds⟩ := Broker.Holds.of_granted wf stepped grant
  have held := holds.run nextWf continued connected
  obtain ⟨along, after, repeated, same, replied⟩ := held.repeated requests finalWf created again
  have afterWf := finalWf.run repeated
  refine ⟨along, after, repeated, same, replied, ?_, ?_⟩
  · intro calls gone left
    have undoes := Broker.Undoes.of_step afterWf left
    unfold Broker.Undoes at undoes ⊢
    rwa [same.peers, same.heap] at undoes
  · intro calls enabled sources
    exact disconnect_completes afterWf enabled sources

/-- The other seven names that fill the array of the peer, and a second holder of its first network. -/
def fillArray : List Event :=
  [("b", 2), ("c", 3), ("d", 4), ("e", 5), ("f", 6), ("g", 7), ("h", 8)].map (fun (name, address) =>
    .peer 1 (.dictionary (acquireRequest (.ofString name))) { calloc := some address }) ++
  [.listener (.connection 2), .peer 2 (.dictionary (acquireRequest (.ofString "a"))) {}]

/-- With a full array, the first name is granted twice more, and its count drops from two to one. -/
theorem acquire_is_idempotent_full : ∃ broker next final after gone,
    run crowdedEnvironment [.listener (.connection 1)] = some broker ∧
    step crowdedEnvironment broker
      (.peer 1 (.dictionary (acquireRequest (.ofString "a"))) { calloc := some 1 }) = some next ∧
    Machine.run (step crowdedEnvironment) next fillArray = some final ∧
    Machine.run (step crowdedEnvironment) final
      (requestsOf 1 [(acquireRequest (.ofString "a"), {}), (acquireRequest (.ofString "a"), {})]) = some after ∧
    after.peers = final.peers ∧ after.heap = final.heap ∧
    (final.peers.lookup 1).map (·.networks.length) = some maxPeerNetworks ∧
    (final.heap.lookup 1).map (·.peers) = some 2 ∧
    step crowdedEnvironment after (.peer 1 .connectionInvalid {}) = some gone ∧
    (gone.heap.lookup 1).map (·.peers) = some 1 := by
  have checked : (run crowdedEnvironment [.listener (.connection 1)]).bind (fun broker =>
      (step crowdedEnvironment broker
        (.peer 1 (.dictionary (acquireRequest (.ofString "a"))) { calloc := some 1 })).bind fun next =>
      (Machine.run (step crowdedEnvironment) next fillArray).map fun final =>
        (granted crowdedEnvironment broker
          (.peer 1 (.dictionary (acquireRequest (.ofString "a"))) { calloc := some 1 }),
          (final.peers.lookup 1).map (·.networks), (final.heap.lookup 1).map (·.peers))) =
      some (some (1, .ofString "a", ⟨.serialization, 3⟩), some [1, 2, 3, 4, 5, 6, 7, 8], some 2) := by
    decide +kernel
  obtain ⟨broker, ran, rest⟩ := Option.bind_eq_some_iff.mp checked
  obtain ⟨next, stepped, rest⟩ := Option.bind_eq_some_iff.mp rest
  obtain ⟨final, continued, facts⟩ := Option.map_eq_some_iff.mp rest
  simp only [Prod.mk.injEq] at facts
  obtain ⟨grant, full, shared⟩ := facts
  obtain ⟨ctx, holding, networks⟩ := Option.map_eq_some_iff.mp full
  obtain ⟨value, live, count⟩ := Option.map_eq_some_iff.mp shared
  have again : AskAgain final (.ofString "a")
      [(acquireRequest (.ofString "a"), {}), (acquireRequest (.ofString "a"), {})] := by
    intro message calls member
    obtain ⟨rfl, rfl⟩ : message = acquireRequest (.ofString "a") ∧ calls = {} := by simpa using member
    exact ⟨rfl, by simp⟩
  obtain ⟨_, after, repeated, same, _, undoes, completes⟩ :=
    acquire_is_idempotent ran stepped grant continued (by simp [fillArray]) _ again
  have enabled : Enabled after (.peer 1 .connectionInvalid {}) := by
    refine ⟨?_, by simp⟩
    rw [same.peers]
    exact AList.mem_of_lookup holding
  obtain ⟨gone, left⟩ := completes {} enabled rfl
  obtain ⟨lowered, found, fewer⟩ := undoes {} gone left ctx 1 value holding live
  refine ⟨broker, next, final, after, gone, ran, stepped, continued, repeated, same.peers, same.heap, ?_, shared,
    left, ?_⟩
  · rw [holding, Option.map_some, networks]
    rfl
  · rw [found, Option.map_some, fewer, networks, count]
    rfl

end VmnetBroker
