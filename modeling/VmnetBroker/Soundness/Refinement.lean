import VmnetBroker.Proofs.Reservations
import VmnetBroker.Machine.Refinement
import VmnetBroker.Soundness.Endings
import Mathlib.Data.Fintype.EquivFin

/-! # The broker is a table of reserved names

Seen from outside, the broker and the table have the same behaviours. Every run of the broker shows a trace of
the table, so registry, blocks, counts and timers never lead to an answer that the table does not give. Every
trace of the table in which the names convert to keys is shown by some run, so the broker refuses nothing that
the table grants, and every reservation that nobody uses can expire.
-/

namespace VmnetBroker

variable {Key : Type} [DecidableEq Key] {env : Environment Key}

/-- The table of a broker state that satisfies the invariant. -/
def Tabulates (env : Environment Key) (broker : Broker Key) (table : Reservations) : Prop :=
  WellFormed env broker ∧ broker.reservations env = table

section Steps

variable {broker next : Broker Key} {event : Event} {peer : Connection} {name : CString} {names : List CString}
  {calls : Calls} {message : Message} {deed : Deed} {configured : Set CString} {table first second : Reservations}

/-- A deed has one effect on a table. -/
theorem Reservations.Step.unique (left : Reservations.Step configured table deed first)
    (right : Reservations.Step configured table deed second) : first = second := by
  cases left <;> cases right <;> simp_all

/-- A step with a visible deed acts on the table. -/
theorem WellFormed.performs (wf : WellFormed env broker) (distinct : env.DistinctKeys)
    (performed : Performs env broker (some deed) next) :
    WellFormed env next ∧ Reservations.Acts env (broker.reservations env) deed (next.reservations env) := by
  obtain ⟨event, stepped, shown⟩ := performed
  refine ⟨wf.step stepped, ?_⟩
  rcases (step_effect wf stepped).performs wf distinct with ⟨hidden, _⟩ | ⟨other, seen, acted⟩
  · rw [hidden] at shown
    contradiction
  · obtain rfl := Option.some.inj (shown.symm.trans seen)
    exact acted

/-- The broker refines the table. -/
theorem refines_reservations (distinct : env.DistinctKeys) :
    Machine.Refines (Performs env) (Reservations.Acts env) (Tabulates env) where
  hidden := by
    rintro broker next _ ⟨wf, rfl⟩ ⟨event, stepped, unseen⟩
    refine ⟨wf.step stepped, ?_⟩
    rcases (step_effect wf stepped).performs wf distinct with ⟨_, same⟩ | ⟨deed, seen, _⟩
    · exact same
    · rw [unseen] at seen
      contradiction
  visible := by
    rintro broker deed next _ ⟨wf, rfl⟩ performed
    obtain ⟨nextWf, acted⟩ := wf.performs distinct performed
    exact ⟨next.reservations env, acted, nextWf, rfl⟩

omit [DecidableEq Key] in
/-- The allocator never runs out of addresses. -/
theorem Broker.exists_free (broker : Broker Key) : ∃ network, network ∉ broker.heap := by
  obtain ⟨network, absent⟩ := Infinite.exists_notMem_finset broker.heap.keys.toFinset
  exact ⟨network, fun member => absent (List.mem_toFinset.mpr (AList.mem_keys.mp member))⟩

/-- The calls of an acquire whose creation goes as the status says. -/
def callsFor (network : Address) (status : VmnetBrokerReturn) : Calls where
  calloc := some network
  vmnetNetworkCreate := status ≠ .createFailure

omit [DecidableEq Key] in
/-- What is configured can be created, unless the creation is made to fail. -/
theorem creates_callsFor {network : Address} {status : VmnetBrokerReturn} :
    env.Creates (callsFor network status) name ↔ env.Configured name ∧ status ≠ .createFailure := by
  constructor
  · rintro ⟨config, configured, good⟩
    refine ⟨env.configured_of_find configured, ?_⟩
    rintro rfl
    simp [Calls.creates, Calls.builds, callsFor] at good
  · rintro ⟨known, wanted⟩
    obtain ⟨config, configured⟩ := known.find
    exact ⟨config, configured, by simp [Calls.creates, Calls.configures, Calls.builds, callsFor, wanted]⟩

/-- What is asked of a connected peer is answered by the policy of the moment. -/
theorem WellFormed.answers (wf : WellFormed env broker) (distinct : env.DistinctKeys)
    (connected : (broker.reservations env).held peer = some names) (valid : name.ValidUtf8)
    (fresh : ∀ network ∈ calls.calloc, network ∉ broker.heap) :
    ∃ next, Performs env broker
      (some (.answers peer name (verdict (broker.policyNow env calls) names name))) next := by
  obtain ⟨ctx, found, held⟩ := wf.held_names connected
  have asks : ∀ other, (acquireRequest name).acquires = some other → other.ValidUtf8 := by
    intro other requested
    rwa [← Option.some.inj requested]
  have enabled : Enabled broker (.peer peer (.dictionary (acquireRequest name)) calls) :=
    ⟨AList.mem_of_lookup found, fresh⟩
  obtain ⟨next, again, result, core, running, lookup, effect, same, replied⟩ := request_outcome wf enabled asks
  obtain rfl := Option.some.inj (found.symm.trans lookup)
  refine ⟨next, _, step_eq_some.mpr ⟨enabled, running⟩, ?_⟩
  cases effect with
  | malformed rejected => contradiction
  | acquire requested created ran effect =>
    obtain rfl := Option.some.inj requested
    rw [← (effect.settles wf distinct found created held).1]
    have asked : (acquireRequest name).acquires = some name := rfl
    simp only [Broker.deed, asked, ran]

/-- Every deed of the table with a convertible name is a step of the broker. -/
theorem WellFormed.realises (wf : WellFormed env broker) (distinct : env.DistinctKeys)
    (acts : Reservations.Acts env (broker.reservations env) deed table) :
    ∃ next, Performs env broker (some deed) next := by
  obtain ⟨acted, convertible⟩ := acts
  obtain ⟨network, free⟩ := broker.exists_free
  have answered {peer : Connection} {name : CString} {names : List CString} (status : VmnetBrokerReturn)
      (connected : (broker.reservations env).held peer = some names) (valid : name.ValidUtf8)
      (settled : verdict (broker.policyNow env (callsFor network status)) names name = status) :
      ∃ next, Performs env broker (some (.answers peer name status)) next := by
    have fresh : ∀ other ∈ (callsFor network status).calloc, other ∉ broker.heap := by
      rintro other ⟨⟩
      exact free
    have answers := wf.answers distinct connected valid fresh
    rwa [settled] at answers
  cases acted with
  | @connect peer absent =>
    have enabled : Enabled broker (.listener (.connection peer)) := held_eq_none_iff.mp absent
    obtain ⟨next, stepped⟩ := wf.runs_on enabled nofun nofun
    exact ⟨next, _, stepped, rfl⟩
  | @reject peer names connected =>
    obtain ⟨ctx, found, _⟩ := wf.held_names connected
    have enabled : Enabled broker (.peer peer (.dictionary ⟨∅, true⟩) {}) :=
      ⟨AList.mem_of_lookup found, by simp⟩
    obtain ⟨next, _, _, _, running, _⟩ := request_outcome wf enabled (by rintro name ⟨⟩)
    exact ⟨next, _, step_eq_some.mpr ⟨enabled, running⟩, rfl⟩
  | again connected mine => exact answered _ connected convertible (verdict_held mine)
  | full connected other full => exact answered _ connected convertible (verdict_full other full)
  | @grant peer names name connected other room offered =>
    refine answered _ connected convertible ((verdict_room other room).trans ?_)
    have known : env.Configured name := by
      rcases offered with ⟨key, network, created, registered⟩ | known
      · exact wf.configured_of_registered distinct created registered
      · exact known
    exact Broker.policyNow_obtainable known (Or.inr (creates_callsFor.mpr ⟨known, by decide⟩))
  | notFound connected other room free unknown =>
    exact answered _ connected convertible ((verdict_room other room).trans (env.policy_unconfigured _ unknown))
  | createFailure connected other room free known =>
    refine answered _ connected convertible ((verdict_room other room).trans ?_)
    refine Broker.policyNow_failure known ?_
    rintro (registered | created)
    · exact free registered
    · exact (creates_callsFor.mp created).2 rfl
  | @disconnect peer names connected =>
    obtain ⟨ctx, found, _⟩ := wf.held_names connected
    obtain ⟨next, stepped⟩ := wf.disconnect_runs_on (AList.mem_of_lookup found)
    exact ⟨next, _, stepped, rfl⟩
  | @expire name reserved unused =>
    obtain ⟨key, network, created, registered⟩ := reserved
    obtain ⟨value, live⟩ := AList.exists_lookup (wf.live_of_registered registered)
    rw [wf.unheld_iff distinct registered created, wf.owners_eq_zero_iff_armed live] at unused
    obtain ⟨source, armed⟩ := Option.isSome_iff_exists.mp unused
    obtain ⟨next, stepped⟩ := wf.timer_runs_on ((wf.network_timer source network).mpr ⟨value, live, armed⟩)
    obtain ⟨other, keyed, shown⟩ := wf.deed_timer registered live armed
    obtain rfl := distinct _ _ _ keyed created
    exact ⟨next, _, stepped, shown⟩

/-- The table has no behaviour that the broker lacks. -/
theorem realises_reservations (distinct : env.DistinctKeys) :
    Machine.Realises (Performs env) (Reservations.Acts env) (Tabulates env) where
  visible := by
    rintro broker deed _ table ⟨wf, rfl⟩ acts
    obtain ⟨next, performed⟩ := wf.realises distinct acts
    obtain ⟨nextWf, acted⟩ := wf.performs distinct performed
    exact ⟨next, performed, nextWf, acted.1.unique acts.1⟩

end Steps

section Runs

variable {broker : Broker Key} {deeds : List Deed} {table : Reservations}

/-- A peer comes, acquires a network and leaves, and the reservation expires. -/
def lifecycle : List Deed :=
  [.connects 1, .answers 1 (.ofString "shared") .success, .disconnects 1, .expires (.ofString "shared")]

end Runs

end VmnetBroker
