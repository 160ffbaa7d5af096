import VmnetBroker.Proofs.Frame
import VmnetBroker.Model.Clock

/-! # Where the armed timers of a step come from

A timer that runs after a step ran before it with the same handler, or its source was created in the
step. The idle timers of a state are therefore classes that only fresh sources enter, as the rules for
machines on a clock ask.
-/

namespace VmnetBroker

variable {Key : Type} [DecidableEq Key] {env : Environment Key} {broker core next : Broker Key} {event : Event}
  {peer : Connection} {ctx : BrokerContext} {network : Address} {value : Network} {key : Key}
  {source : Object} {handler : Handler} {message : Message} {calls : Calls} {result : Option Object × Int32}

theorem mem_brokerTimers_armed : (brokerTimers env).armed broker source = true ↔ source ∈ broker.sources := by
  simp [brokerTimers]

omit [DecidableEq Key] in
/-- What runs after a cancellation ran before it. -/
private theorem lookup_of_cancelled {cancelled : Option Object}
    (armed : (cancelled.elim broker.sources broker.sources.erase).lookup source = some handler) :
    broker.sources.lookup source = some handler := by
  cases cancelled with
  | none => exact armed
  | some other =>
    rw [Option.elim_some, AList.lookup_erase_eq] at armed
    split at armed
    · contradiction
    · exact armed

/-- A request only cancels timers. -/
theorem RequestEffect.source_origin (effect : RequestEffect env broker peer ctx message calls result core)
    (armed : core.sources.lookup source = some handler) : broker.sources.lookup source = some handler := by
  cases effect with
  | malformed rejected => exact armed
  | acquire requested created ran effect =>
    cases effect with
    | owned | full | notFound | createFailure => exact armed
    | shared | created => exact lookup_of_cancelled armed

/-- A peer that leaves cancels no timer, and the sources that its leaving creates are new. -/
private theorem source_origin_farewell {middle : Broker Key} (wf : WellFormed env broker)
    (found : broker.peers.lookup peer = some ctx) (coherent : Coherent env middle)
    (released : { broker with connectedPeers := broker.connectedPeers - 1 }.Released middle ctx.networks)
    (armed : (middle.farewell peer).sources.lookup source = some handler) :
    broker.sources.lookup source = some handler ∨ source ∉ broker.sources := by
  by_cases ran : source ∈ broker.sources
  · left
    obtain ⟨before, running⟩ := AList.exists_lookup ran
    have kept : middle.sources.lookup source = some before := by
      cases before with
      | shutdown =>
        have idle := (wf.broker_timer source).mp running
        rw [wf.unarmed (AList.mem_of_lookup found)] at idle
        contradiction
      | removeNetwork network =>
        obtain ⟨value, live, timer⟩ := (wf.network_timer source network).mp running
        have unused : network ∉ ctx.networks := by
          intro member
          have idle : value.peers = 0 := (wf.timed network value live).mp (by simp [timer])
          have counted := wf.counted network value live
          have positive := owners_pos found member
          omega
        exact (coherent.network_timer source network).mpr
          ⟨value, (released.untouched network unused).trans live, timer⟩
    have after : (middle.farewell peer).sources.lookup source = some before := by
      unfold Broker.farewell
      split
      · refine (AList.lookup_insert_ne ?_).trans kept
        rintro rfl
        exact coherent.source_fresh (AList.mem_of_lookup kept)
      · exact kept
    rw [running, ← Option.some.inj (armed.symm.trans after)]
  · exact Or.inr ran

/-- A timer runs with the handler that it had, or its source did not exist. -/
theorem StepEffect.source_origin (effect : StepEffect env broker event next) (wf : WellFormed env broker)
    (armed : next.sources.lookup source = some handler) :
    broker.sources.lookup source = some handler ∨ source ∉ broker.sources := by
  cases effect with
  | ignored harmless => exact Or.inl armed
  | accepted absent =>
    left
    unfold Broker.welcome at armed
    split at armed
    · exact lookup_of_cancelled armed
    · exact armed
  | requested found effect same replied =>
    rw [same.sources] at armed
    exact Or.inl (effect.source_origin armed)
  | disconnected found coherent timed emptied others released =>
    exact source_origin_farewell wf found coherent released armed
  | removed =>
    left
    rw [Broker.discard, AList.lookup_erase_eq] at armed
    split at armed
    · contradiction
    · exact armed

section Clock

variable {clocked later : ClockedBroker Key} {label : TimedEvent} {events : List TimedEvent}

/-- Waiting timers of one purpose: their handler is the given one. -/
def Waits (handler : Handler) (broker : Broker Key) (source : Object) : Prop :=
  broker.sources.lookup source = some handler

/-- The timers of one handler are a class that only new sources enter. -/
theorem purpose_waits (env : Environment Key) (handler : Handler) :
    Machine.Timers.Purpose (WellFormed env) (Waits handler) (brokerTimers env) where
  keep _ _ _ good stepped := good.step stepped
  armed _ _ waiting := mem_brokerTimers_armed.mpr (AList.mem_of_lookup waiting)
  origin state label next timer good stepped waiting := by
    rcases (step_effect good stepped).source_origin good waiting with before | fresh
    · exact Or.inl before
    · right
      rw [← Bool.not_eq_true, mem_brokerTimers_armed]
      exact fresh

/-- A timed run is a run. -/
theorem wellFormed_of_timedRun (wf : WellFormed env clocked.state)
    (ran : Machine.run (timedStep env) clocked events = some later) : WellFormed env later.state :=
  wf.run (Machine.Timers.run_forget ran)

end Clock

end VmnetBroker
