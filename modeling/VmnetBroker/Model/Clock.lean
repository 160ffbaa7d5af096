import VmnetBroker.Model.Broker
import VmnetBroker.Machine.Clock

/-! # Idle timers on the clock

`remove_later` and `shutdown_later` set their timers alike: to fire once, `idle_timeout_sec` seconds
from now, and up to a second later if that suits the system. Time is the clock of
`DISPATCH_TIME_NOW` in nanoseconds. A handler runs at one time, so all the timers that it arms are due
together.
-/

namespace VmnetBroker

/-- `idle_timeout_sec`. -/
def idleTimeoutSec : ℕ := 120

/-- `NSEC_PER_SEC`. -/
def nsecPerSec : ℕ := 1000000000

/-- How long after it is armed a timer starts to fire. -/
def idleTimeout : ℕ := idleTimeoutSec * nsecPerSec

/-- How late the system may fire a timer. -/
def timerLeeway : ℕ := 1 * nsecPerSec

/-- The timer source whose handler an event runs. -/
def Event.fires : Event → Option Object
  | .timer source => some source
  | _ => none

variable {Key : Type} [DecidableEq Key]

/-- The broker with its timers; both kinds have the same timeout. -/
def brokerTimers (env : Environment Key) : Machine.Timers (Broker Key) Event Object where
  step := step env
  armed broker source := source ∈ broker.sources
  fires := Event.fires
  timeout := idleTimeout

/-- A broker, the time, and when each of its timers is due. -/
abbrev ClockedBroker (Key : Type) := Machine.Clocked (Broker Key) Object

/-- An event at a time. -/
abbrev TimedEvent := ℕ × Event

/-- A broker process that starts at this time. -/
def launchedAt (time : ℕ) : ClockedBroker Key := { state := {}, now := time, due := fun _ => time }

def timedStep (env : Environment Key) : ClockedBroker Key → TimedEvent → Option (ClockedBroker Key) :=
  (brokerTimers env).tick

/-- The broker after a sequence of events at their times, none of which ends the process. -/
def timedRun (env : Environment Key) (time : ℕ) (events : List TimedEvent) : Option (ClockedBroker Key) :=
  Machine.run (timedStep env) (launchedAt time) events

/-- The process ends in this way at this time. -/
def ExitsAt (env : Environment Key) (clocked : ClockedBroker Key) (label : TimedEvent) (exit : Exit) : Prop :=
  (brokerTimers env).Ready clocked label ∧ Enabled clocked.state label.2 ∧
    ∃ final, outcome env clocked.state label.2 = .exited exit final

/-- No timer of the broker is later than the leeway allows. -/
def Punctual (env : Environment Key) : ClockedBroker Key → TimedEvent → Prop :=
  (brokerTimers env).Punctual timerLeeway

instance (env : Environment Key) (clocked : ClockedBroker Key) : DecidablePred (Punctual env clocked) := fun label =>
  decidable_of_iff (∀ source ∈ clocked.state.sources.keys, label.1 ≤ clocked.due source + timerLeeway)
    (by simp [Punctual, Machine.Timers.Punctual, brokerTimers, AList.mem_keys])

end VmnetBroker
