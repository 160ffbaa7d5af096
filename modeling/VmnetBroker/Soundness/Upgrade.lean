import VmnetBroker.Model.Service
import VmnetBroker.Soundness.Accounting

/-! # Stopping the service

The scripts check that the broker is idle and boot the service out later, and launchd starts a new broker
in between when a client connects. The bootout does not check again. Without a connection in that window
every broker that is terminated has no peers, in every interleaving of script, launchd and clients.
-/

namespace VmnetBroker

variable {Key : Type}

/-- The script no longer looks at the broker: the process it reads, signals or waits for is gone, and what
remains ends in the bootout. -/
def System.committed (system : System Key) : Bool :=
  match system.script with
  | .killTerm pid => (system.named pid).isNone
  | .waitStopped pid (_ + 1) => (system.named pid).isNone
  | .bootout => true
  | .finished => system.process.any (·.bootedOut)
  | _ => false

/-- A broker accepts a connection. -/
def Move.accepts : Move → Bool
  | .broker (.listener (.connection _)) => true
  | _ => false

/-- No connection is accepted between the check and the end of the broker that is booted out. -/
def Quiet (system : System Key) (move : Move) : Prop := system.committed = true → move.accepts = false

instance (system : System Key) (move : Move) : Decidable (Quiet system move) :=
  inferInstanceAs (Decidable (_ → _))

variable [DecidableEq Key] {env : Environment Key} {program : Program} {system next : System Key}
  {process new : Process Key} {event : Event}

/-- The invariant of quiet runs. -/
structure Guarded (env : Environment Key) (system : System Key) : Prop where
  wf : ∀ process ∈ system.process, WellFormed env process.broker
  unready : ∀ process ∈ system.process, process.signalHandlers = false → process.broker.connectedPeers = 0
  bootedOut : ∀ process ∈ system.process, process.bootedOut = true → system.script = .finished
  installed : system.script = .servicePid → system.bootstrapped = true
  idle : system.committed = true → ∀ process ∈ system.process, process.broker.connectedPeers = 0
  spared : ∀ broker ∈ system.terminated, broker.connectedPeers = 0

section Moves

omit [DecidableEq Key] in
/-- The pid and the mark of the bootout decide what the script sees. -/
theorem System.committed_congr (found : system.process = some process) (pid : new.pid = process.pid)
    (bootedOut : new.bootedOut = process.bootedOut) :
    ({ system with process := some new } : System Key).committed = system.committed := by
  have named (argument : Option ℕ) : (({ system with process := some new } : System Key).named argument).isNone =
      (system.named argument).isNone := by
    simp only [System.named, found, Option.filter, pid]
    split <;> rfl
  simp only [System.committed, named, found, Option.any_some, bootedOut]

omit [DecidableEq Key] in
/-- A failing `kill -0` means that the process is gone. -/
theorem System.named_of_kill0 {pid : Option ℕ} {reused : Bool} (gone : ¬ system.kill0 pid reused = true) :
    (system.named pid).isNone = true := by
  simp only [System.kill0, Bool.or_eq_true, not_or] at gone
  simpa using gone.1

namespace Guarded

theorem gone (guarded : Guarded env system) : Guarded env { system with process := none } where
  wf := by simp
  unready := by simp
  bootedOut := by simp
  installed := guarded.installed
  idle := by simp
  spared := guarded.spared

/-- The end of a broker without peers is fine. -/
theorem terminate (guarded : Guarded env system) (idle : process.broker.connectedPeers = 0) :
    Guarded env (system.terminate process) where
  wf := by simp [System.terminate]
  unready := by simp [System.terminate]
  bootedOut := by simp [System.terminate]
  installed := guarded.installed
  idle := by simp [System.terminate]
  spared broker member := by
    rcases List.mem_append.mp member with old | now
    · exact guarded.spared broker old
    · rw [List.mem_singleton.mp now]
      exact idle

/-- The process moves on. -/
theorem replace (guarded : Guarded env system) (found : system.process = some process)
    (pid : new.pid = process.pid) (bootedOut : new.bootedOut = process.bootedOut) (wf : WellFormed env new.broker)
    (unready : new.signalHandlers = false → new.broker.connectedPeers = 0)
    (idle : system.committed = true → new.broker.connectedPeers = 0) :
    Guarded env { system with process := some new } where
  wf := by simpa using wf
  unready := by simpa using unready
  bootedOut := by
    intro other same marked
    obtain rfl := Option.some.inj same
    exact guarded.bootedOut process found (bootedOut ▸ marked)
  installed := guarded.installed
  idle := by
    rw [System.committed_congr found pid bootedOut]
    simpa using idle
  spared := guarded.spared

theorem sigterm (guarded : Guarded env system) (found : system.process = some process) :
    Guarded env (system.sigterm process) := by
  unfold System.sigterm
  split
  · exact guarded.replace found rfl rfl (guarded.wf process found) (guarded.unready process found)
      fun committed => guarded.idle committed process found
  · next unready => exact guarded.terminate (guarded.unready process found (by simpa using unready))

/-- The script moves on without touching the broker. -/
theorem advance (guarded : Guarded env system) (working : system.script ≠ .finished) {script : Script}
    (installed : script = .servicePid → system.bootstrapped = true)
    (idle : ({ system with script := script } : System Key).committed = true →
      ∀ process ∈ system.process, process.broker.connectedPeers = 0) :
    Guarded env { system with script := script } where
  wf := guarded.wf
  unready := guarded.unready
  bootedOut process found marked := absurd (guarded.bootedOut process found marked) working
  installed := installed
  idle := idle
  spared := guarded.spared

/-- The script reads that nothing runs, or the pid of what runs. -/
theorem servicePid (guarded : Guarded env system) (reading : system.script = .servicePid) :
    system.servicePid = .dash ∧ system.process = none ∨
      ∃ process, system.servicePid = .pid process.pid ∧ system.process = some process := by
  have installed := guarded.installed reading
  cases found : system.process with
  | none => exact Or.inl ⟨by simp [System.servicePid, installed, found], rfl⟩
  | some process => exact Or.inr ⟨process, by simp [System.servicePid, installed, found], rfl⟩

/-- What is booted out while the script is committed has no peers. -/
theorem bootout (guarded : Guarded env system) (found : system.process = some process)
    (committed : system.committed = true) :
    Guarded env (({ system with bootstrapped := false, script := .finished } : System Key).sigterm
      { process with bootedOut := true }) := by
  have idle := guarded.idle committed process found
  have marked : Guarded env { system with
      bootstrapped := false, script := .finished, process := some { process with bootedOut := true } } := by
    refine ⟨?_, ?_, ?_, ?_, ?_, guarded.spared⟩
    · simpa using guarded.wf process found
    · simpa using guarded.unready process found
    · simp
    · simp
    · simpa using fun _ => idle
  exact marked.sigterm rfl

/-- Every command of the script keeps the invariant. -/
theorem script (guarded : Guarded env system) {reused : Bool}
    (stepped : system.scriptStep program reused = some next) : Guarded env next := by
  unfold System.scriptStep at stepped
  split at stepped
  · next script =>
    obtain rfl := Option.some.inj stepped
    refine guarded.advance (by simp [script]) (by split <;> simp [*]) ?_
    intro committed process found
    split at committed
    · contradiction
    · have marked : process.bootedOut = true := by simpa [System.committed, Option.mem_def.mp found] using committed
      rw [guarded.bootedOut process found marked] at script
      contradiction
  · next script =>
    rcases guarded.servicePid script with ⟨reads, vacant⟩ | ⟨process, reads, found⟩
    · rw [reads] at stepped
      obtain rfl := Option.some.inj stepped
      exact guarded.advance (by simp [script]) (by simp) (by simp [vacant])
    · rw [reads] at stepped
      obtain rfl := Option.some.inj stepped
      exact guarded.advance (by simp [script]) (by simp) (by simp [System.committed, System.named, found])
  · next pid script =>
    obtain rfl := Option.some.inj stepped
    have waiting : Guarded env { system with script := .waitStopped pid stopTimeout } := by
      refine guarded.advance (by simp [script]) (by simp) fun committed => guarded.idle ?_
      simpa [System.committed, System.named, script, stopTimeout] using committed
    cases named : system.named pid with
    | none => exact waiting
    | some process => exact waiting.sigterm (Option.filter_eq_some_iff.mp named).1
  · next script =>
    obtain rfl := Option.some.inj stepped
    exact guarded.advance (by simp [script]) (by simp) (by simp [System.committed])
  · next pid attempts script =>
    obtain rfl := Option.some.inj stepped
    refine guarded.advance (by simp [script]) (by split <;> simp) fun committed => guarded.idle ?_
    simp only [System.committed, script]
    split at committed
    · cases attempts with
      | zero => contradiction
      | succ attempts => exact committed
    · next gone => exact System.named_of_kill0 gone
  · next script =>
    obtain rfl := Option.some.inj stepped
    have committed : system.committed = true := by simp [System.committed, script]
    cases found : system.process with
    | none => exact ⟨by simp, by simp, by simp, by simp, by simp, guarded.spared⟩
    | some process => exact guarded.bootout found committed
  · contradiction
  · contradiction

end Guarded

/-- Only an accepted connection adds a peer. -/
theorem StepEffect.connectedPeers_le {broker after : Broker Key} (effect : StepEffect env broker event after)
    (wf : WellFormed env broker) (other : ∀ peer, event ≠ .listener (.connection peer)) :
    after.connectedPeers ≤ broker.connectedPeers := by
  have tracked : after.peers.keys.length = (trackConnection broker.peers.keys event).length :=
    (effect.tracked wf).1.length_eq
  have fewer : (trackConnection broker.peers.keys event).length ≤ broker.peers.keys.length := by
    unfold trackConnection
    split
    · exact absurd rfl (other _)
    · exact List.length_erase_le
    · exact le_rfl
  have before := wf.connected
  have now := (wf.effect effect).connected
  simp only [AList.keys, List.keys, List.length_map] at tracked fewer
  omega

namespace Guarded

/-- An event of the broker, quiet if it accepts a connection. -/
theorem broker (guarded : Guarded env system) (found : system.process = some process)
    (ready : process.signalHandlers = true) (enabled : Enabled process.broker event)
    (quiet : Quiet system (.broker event)) : Guarded env (system.brokerStep env process event) := by
  have wf := guarded.wf process found
  have effect := outcome_effect wf enabled
  unfold System.brokerStep
  cases result : outcome env process.broker event with
  | running after =>
    rw [result] at effect
    cases effect with
    | running effect =>
      refine guarded.replace found rfl rfl (wf.effect effect) (by simp [ready]) ?_
      intro committed
      have idle := guarded.idle committed process found
      have accepts := quiet committed
      have fewer := effect.connectedPeers_le wf (by rintro peer rfl; contradiction)
      have counted := (wf.effect effect).connected
      simp only
      omega
  | exited exit after => exact guarded.gone
  | crashed fault => exact guarded.gone

/-- The signal handler exits only without peers. -/
theorem signal (guarded : Guarded env system) (found : system.process = some process) :
    Guarded env (system.signalStep env process) := by
  have wf := guarded.wf process found
  have effect : OutcomeEffect env process.broker .signal (outcome env process.broker .signal) :=
    outcome_effect wf trivial
  unfold System.signalStep
  cases result : outcome env process.broker .signal with
  | running after =>
    rw [result] at effect
    cases effect with
    | running effect =>
      cases effect with
      | ignored harmless =>
        exact guarded.replace found rfl rfl wf (guarded.unready process found)
          fun committed => guarded.idle committed process found
  | exited exit after =>
    rw [result] at effect
    cases effect with
    | shutdown stops => exact guarded.terminate (stops.connectedPeers wf)
  | crashed fault =>
    rw [result] at effect
    contradiction

end Guarded

/-- A quiet move keeps the invariant. -/
theorem Guarded.step (guarded : Guarded env system) {move : Move} (quiet : Quiet system move)
    (stepped : systemStep env program system move = some next) : Guarded env next := by
  cases move with
  | script reused => exact guarded.script stepped
  | launch pid =>
    obtain ⟨vacant, moved⟩ := Option.ite_none_right_eq_some.mp stepped
    obtain rfl := Option.some.inj moved
    refine ⟨?_, by simp, by simp, guarded.installed, by simp, guarded.spared⟩
    simpa using WellFormed.initial env
  | main =>
    obtain ⟨process, found, rfl⟩ := Option.map_eq_some_iff.mp stepped
    exact guarded.replace found rfl rfl (guarded.wf process found) (by simp)
      fun committed => guarded.idle committed process found
  | broker event =>
    simp only [systemStep] at stepped
    split at stepped
    · contradiction
    · next process found =>
      obtain ⟨⟨ready, _, enabled⟩, moved⟩ := Option.ite_none_right_eq_some.mp stepped
      obtain rfl := Option.some.inj moved
      exact guarded.broker found ready enabled quiet
  | signal =>
    simp only [systemStep] at stepped
    split at stepped
    · contradiction
    · next process found =>
      obtain ⟨_, moved⟩ := Option.ite_none_right_eq_some.mp stepped
      obtain rfl := Option.some.inj moved
      exact guarded.signal found
  | kill =>
    simp only [systemStep] at stepped
    split at stepped
    · contradiction
    · next process found =>
      obtain ⟨marked, moved⟩ := Option.ite_none_right_eq_some.mp stepped
      obtain rfl := Option.some.inj moved
      have committed : system.committed = true := by
        simp [System.committed, guarded.bootedOut process found marked, found, marked]
      exact guarded.terminate (guarded.idle committed process found)

theorem System.Initial.guarded (initial : system.Initial env) : Guarded env system where
  wf process found := (initial.reachable process found).wellFormed
  unready process found unready := by rw [initial.unready process found unready]
  bootedOut process found marked := by simp [initial.serving process found] at marked
  installed := by simp [initial.script]
  idle := by simp [System.committed, initial.script]
  spared := by simp [initial.terminated]

end Moves

section Runs

/-- A run of the script among launchd and the clients. -/
def systemRun (env : Environment Key) (program : Program) (system : System Key) (moves : List Move) :
    Option (System Key) := Machine.run (systemStep env program) system moves

/-- No broker was terminated with a peer connected. -/
def System.Spared (system : System Key) : Prop := ∀ broker ∈ system.terminated, broker.connectedPeers = 0

/-- What the documentation of both scripts promises, for every interleaving. -/
def StopIsSafe (env : Environment Key) : Prop :=
  ∀ program start moves final, System.Initial env start → systemRun env program start moves = some final →
    (∃ message, final.script = .fatal message) ∨ final.Spared

/-- A service that nobody uses. -/
def unused : System (List UInt8) where
  bootstrapped := true
  process := none

/-- A client connects after the check, and the bootout takes its broker away. -/
def lateClient : List Move :=
  [.script false, .script false, .launch 100, .main, .broker (.listener (.connection 1)),
    .broker (.peer 1 (.dictionary (acquireRequest (.ofString "shared"))) { calloc := some 16 }),
    .script false, .signal, .kill]

theorem unused_initial : unused.Initial builtinEnvironment :=
  ⟨rfl, rfl, by simp [unused], by simp [unused], by simp [unused]⟩

/-- The scripts can end a broker with a connected peer and report success. -/
theorem bootout_breaks_late_client : ¬ StopIsSafe builtinEnvironment := by
  intro safe
  have checked : (systemRun builtinEnvironment .install unused lateClient).map
      (fun final => (final.script, final.terminated.map (·.connectedPeers))) = some (.finished, [1]) := by
    decide +kernel
  obtain ⟨final, ran, ends⟩ := Option.map_eq_some_iff.mp checked
  obtain ⟨script, terminated⟩ := Prod.mk.inj ends
  rcases safe .install unused lateClient final unused_initial ran with ⟨message, fatal⟩ | spared
  · rw [script] at fatal
    contradiction
  · have counted : (1 : ℤ) ∈ final.terminated.map (·.connectedPeers) := by simp [terminated]
    obtain ⟨broker, member, one⟩ := List.mem_map.mp counted
    have none := spared broker member
    omega

/-- Without a connection in the window between check and bootout, no broker is terminated with a peer. -/
theorem quiet_stop_is_safe (start final : System Key) (moves : List Move) (initial : start.Initial env)
    (quiet : Machine.Along (systemStep env program) Quiet start moves)
    (ran : systemRun env program start moves = some final) : final.Spared := by
  have guarded : Guarded env final :=
    Machine.run_invariant_along (Guarded env) (fun _ _ _ guarded quiet stepped => guarded.step quiet stepped)
      initial.guarded quiet ran
  exact guarded.spared

/-- A broker that runs its loop, with nobody connected yet. -/
def listening : System (List UInt8) where
  bootstrapped := true
  process := some { pid := 100, signalHandlers := true }

/-- The only client leaves before the signal, and nobody connects again. -/
def lastClient : List Move :=
  [.broker (.listener (.connection 1)),
    .broker (.peer 1 (.dictionary (acquireRequest (.ofString "shared"))) { calloc := some 16 }),
    .script false, .script false, .broker (.peer 1 .connectionInvalid {}), .script false, .signal, .script false,
    .script false]

theorem quiet_stop_is_safe_lastClient : ∃ final,
    systemRun builtinEnvironment .uninstall listening lastClient = some final ∧ final.script = .finished ∧
    final.terminated.length = 1 ∧ final.Spared := by
  have initial : listening.Initial builtinEnvironment :=
    ⟨rfl, rfl, by simpa [listening] using ⟨[], rfl⟩, by simp [listening], by simp [listening]⟩
  have checked : (systemRun builtinEnvironment .uninstall listening lastClient).map
      (fun final => (final.script, final.terminated.length)) = some (.finished, 1) := by decide +kernel
  have quiet : Machine.Along (systemStep builtinEnvironment .uninstall) Quiet listening lastClient := by
    decide +kernel
  obtain ⟨final, ran, ends⟩ := Option.map_eq_some_iff.mp checked
  obtain ⟨script, terminated⟩ := Prod.mk.inj ends
  exact ⟨final, ran, script, terminated, quiet_stop_is_safe listening final lastClient initial quiet ran⟩

end Runs

end VmnetBroker
