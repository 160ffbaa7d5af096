import VmnetBroker.Model.Broker

/-! # The service, launchd and the scripts that stop it

`preinstall` of `install.sh` and `uninstall.sh` stop the broker in the same steps of `common.sh`: look the
service up, read its pid, signal it, wait until the process is gone, boot the service out. Every
step is one move of the script, and the broker, its clients and launchd move in between. What is
assumed of launchd is that it starts the broker on demand while the service is bootstrapped, and that
it kills a booted out broker that does not exit. A bootout takes effect here; the scripts go on after one
that fails, which signals nobody.
-/

namespace VmnetBroker

/-- The two scripts, which differ in the message of a failed stop. -/
inductive Program where
  | install
  | uninstall
deriving DecidableEq, Repr

def Program.stopFailure : Program → String
  | .install => "Install failed: failed to stop service (vms are running?)"
  | .uninstall => "Uninstall failed: failed to stop service (vms are running?)"

/-- `stop_timeout`, in polls of one second. -/
def stopTimeout : ℕ := 5

/-- What `service_pid` prints: nothing, a dash, or the number. -/
inductive PidField where
  | missing
  | dash
  | pid (pid : ℕ)
deriving DecidableEq, Repr

/-- The next command of the script. The empty output of `service_pid` is an argument that names no process. -/
inductive Script where
  | serviceInstalled
  | servicePid
  | killTerm (pid : Option ℕ)
  | waitStopped (pid : Option ℕ) (attempts : ℕ)
  | bootout
  | finished
  | fatal (message : String)
deriving DecidableEq, Repr

/-- A broker process. Until `setup_signal_handlers` has run, `SIGTERM` has its default action; after, it is
pending until the run loop handles it. -/
structure Process (Key : Type) where
  pid : ℕ
  broker : Broker Key := {}
  signalHandlers : Bool := false
  pendingSignal : Bool := false
  bootedOut : Bool := false

/-- The service under launchd, the script, and the brokers terminated so far as they were then. -/
structure System (Key : Type) where
  bootstrapped : Bool
  process : Option (Process Key)
  script : Script := .serviceInstalled
  terminated : List (Broker Key) := []

namespace System

variable {Key : Type}

/-- The process is ended from outside. -/
def terminate (system : System Key) (process : Process Key) : System Key :=
  { system with process := none, terminated := system.terminated ++ [process.broker] }

/-- The process receives `SIGTERM`. -/
def sigterm (system : System Key) (process : Process Key) : System Key :=
  if process.signalHandlers then { system with process := some { process with pendingSignal := true } }
  else system.terminate process

/-- `service_pid`. -/
def servicePid (system : System Key) : PidField :=
  if system.bootstrapped then system.process.elim .dash (.pid ·.pid) else .missing

/-- The running broker, if the argument of `kill` names it. -/
def named (system : System Key) (pid : Option ℕ) : Option (Process Key) :=
  system.process.filter (some ·.pid = pid)

/-- `kill -0`. An unrelated process may have been given the number again. -/
def kill0 (system : System Key) (pid : Option ℕ) (reused : Bool) : Bool :=
  (system.named pid).isSome || pid.isSome && reused

/-- One command of the script: the lookups and the test of `try_stop_service`, its signal, a turn of its loop or
the end of it, and the bootout. -/
def scriptStep (program : Program) (reused : Bool) (system : System Key) : Option (System Key) :=
  match system.script with
  | .serviceInstalled =>
    some { system with script := if system.bootstrapped then .servicePid else .finished }
  | .servicePid =>
    match system.servicePid with
    | .dash => some { system with script := .bootout }
    | .pid pid => some { system with script := .killTerm (some pid) }
    | .missing => some { system with script := .killTerm none }
  | .killTerm pid =>
    let waiting := { system with script := .waitStopped pid stopTimeout }
    some ((system.named pid).elim waiting waiting.sigterm)
  | .waitStopped _ 0 => some { system with script := .fatal program.stopFailure }
  | .waitStopped pid (attempts + 1) =>
    some { system with script := if system.kill0 pid reused then .waitStopped pid attempts else .bootout }
  | .bootout =>
    let removed := { system with bootstrapped := false, script := .finished }
    some (system.process.elim removed fun process => removed.sigterm { process with bootedOut := true })
  | .finished => none
  | .fatal _ => none

variable [DecidableEq Key]

/-- The broker handles an event; an exit or a fault ends the process. -/
def brokerStep (env : Environment Key) (system : System Key) (process : Process Key) (event : Event) : System Key :=
  match outcome env process.broker event with
  | .running next => { system with process := some { process with broker := next } }
  | .exited _ _ => { system with process := none }
  | .crashed _ => { system with process := none }

/-- The run loop handles the pending signal; the handler may decline. -/
def signalStep (env : Environment Key) (system : System Key) (process : Process Key) : System Key :=
  match outcome env process.broker .signal with
  | .running next => { system with process := some { process with broker := next, pendingSignal := false } }
  | .exited _ _ => system.terminate process
  | .crashed _ => system.terminate process

end System

/-- One move of one party. -/
inductive Move where
  | script (reused : Bool)
  /-- launchd starts the broker for a client. -/
  | launch (pid : ℕ)
  /-- The new process runs `setup_signal_handlers` and starts the listener. -/
  | main
  | broker (event : Event)
  | signal
  /-- launchd kills a booted out broker after the exit timeout. -/
  | kill
deriving DecidableEq

variable {Key : Type} [DecidableEq Key]

/-- The system after one move, if the move is possible. -/
def systemStep (env : Environment Key) (program : Program) (system : System Key) : Move → Option (System Key)
  | .script reused => system.scriptStep program reused
  | .launch pid =>
    if system.bootstrapped && system.process.isNone then some { system with process := some { pid } } else none
  | .main => system.process.map fun process =>
    { system with process := some { process with signalHandlers := true } }
  | .broker event =>
    match system.process with
    | none => none
    | some process =>
      if process.signalHandlers ∧ event ≠ .signal ∧ Enabled process.broker event then
        some (system.brokerStep env process event)
      else none
  | .signal =>
    match system.process with
    | none => none
    | some process => if process.pendingSignal then some (system.signalStep env process) else none
  | .kill =>
    match system.process with
    | none => none
    | some process => if process.bootedOut then some (system.terminate process) else none

/-- A system before the script: any broker that a run can reach, or none. -/
structure System.Initial (env : Environment Key) (system : System Key) : Prop where
  script : system.script = .serviceInstalled
  terminated : system.terminated = []
  reachable : ∀ process ∈ system.process, Reachable env process.broker
  unready : ∀ process ∈ system.process, process.signalHandlers = false → process.broker = {}
  serving : ∀ process ∈ system.process, process.bootedOut = false

end VmnetBroker
