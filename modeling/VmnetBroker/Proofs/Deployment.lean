import VmnetBroker.Model.Deployment
import VmnetBroker.Soundness.Agreement
import VmnetBroker.Soundness.Retention

/-! # What a move keeps of a deployment

A client counts what it was given together with what the reply on its way will give it, so that receiving a
reply changes nothing. Each such grant is backed: the running broker made it and holds the network for the
client, or the broker that made it ended while it served. A move of anybody keeps all grants backed, and
leaves no message that a broker took without a reply.
-/

namespace VmnetBroker

variable {Key : Type}

/-- What the reply on its way will add. -/
def ClientProcess.pending (client : ClientProcess) : List Grant :=
  match client.asking, client.reply with
  | some name, some (launch, reply) =>
    ((decodeReply reply).1.map fun serialization => ⟨name, launch, serialization⟩).toList
  | _, _ => []

/-- Everything that the client was given. -/
def ClientProcess.grants (client : ClientProcess) : List Grant := client.networks ++ client.pending

namespace ClientProcess

variable {client : ClientProcess} {name : CString} {launch : ℕ} {reply : Reply}

theorem pending_of_idle (idle : client.reply = none) : client.pending = [] := by
  unfold pending
  rw [idle]
  split <;> trivial

/-- A call gives nothing yet. -/
theorem grants_call (free : client.reply = none) : (client.call name).grants = client.grants := by
  have later : (client.call name).pending = [] := pending_of_idle free
  rw [grants, grants, pending_of_idle free, later]
  rfl

/-- Receiving a reply gives what was pending. -/
theorem grants_receive (asking : client.asking = some name) (replied : client.reply = some (launch, reply)) :
    (client.receive name launch reply).grants = client.grants := by
  have left : (client.receive name launch reply).pending = [] := rfl
  rw [grants, grants, left, List.append_nil, receive, pending, asking, replied]

@[simp] theorem asking_interrupted (client : ClientProcess) (launch : ℕ) :
    (client.interrupted launch).asking = client.asking := by
  unfold interrupted
  split <;> rfl

@[simp] theorem delivered_interrupted (client : ClientProcess) (launch : ℕ) :
    (client.interrupted launch).delivered = client.delivered := by
  unfold interrupted
  split <;> rfl

/-- An interruption ends a call, and takes no reply. -/
theorem reply_interrupted (client : ClientProcess) (launch : ℕ) :
    (client.interrupted launch).reply.isSome = (client.reply.isSome || client.asking.isSome) := by
  unfold interrupted
  cases replied : client.reply <;> cases asking : client.asking <;> simp [replied]

/-- An interrupted call gives nothing. -/
theorem grants_interrupted (client : ClientProcess) (launch : ℕ) :
    (client.interrupted launch).grants = client.grants := by
  unfold interrupted
  split
  · next waiting =>
    simp only [Bool.and_eq_true, Option.isNone_iff_eq_none] at waiting
    have failed : { client with reply := some (launch, .error) }.pending = [] := by
      unfold pending
      cases client.asking <;> rfl
    rw [grants, grants, failed, pending_of_idle waiting.2]
  · rfl

end ClientProcess

variable [DecidableEq Key] {env : Environment Key} {deployment : Deployment Key} {broker next : Broker Key}
  {event : Event} {peer : Connection} {client : ClientProcess} {grant : Grant} {name : CString} {calls : Calls}

/-- The running broker holds this network for the client, or the broker that granted it ended while it served. -/
def Deployment.Backs (env : Environment Key) (deployment : Deployment Key) (peer : Connection) (grant : Grant) :
    Prop :=
  grant.launch ∈ deployment.lost ∨ grant.launch = deployment.launches ∧ ∃ broker, deployment.broker = some broker ∧
    ∃ key network serialization, env.createWithCString grant.name = some key ∧
      grant.serialization = .serialization serialization ∧ broker.Holds peer key network serialization

/-- The invariant of all deployments. -/
structure Deployment.Sound (env : Environment Key) (deployment : Deployment Key) : Prop where
  wf : ∀ broker, deployment.broker = some broker → WellFormed env broker
  called : ∀ peer client, deployment.clients peer = some client → client.reply.isSome = true →
    client.asking.isSome = true
  answered : ∀ peer client, deployment.clients peer = some client → client.delivered = true →
    client.reply.isSome = true
  backed : ∀ peer client, deployment.clients peer = some client → ∀ grant ∈ client.grants,
    deployment.Backs env peer grant

section Deliver

/-- How a delivered event leaves the broker: it runs on, it is gone without peers, or it is lost. -/
theorem Deployment.deliver_cases (env : Environment Key) (deployment : Deployment Key) (broker : Broker Key)
    (event : Event) :
    (∃ next, outcome env broker event = .running next ∧
      deployment.deliver env broker event = { deployment with broker := some next }) ∨
    (∃ exit final, outcome env broker event = .exited exit final ∧ exit ≠ .listenerFailed ∧
      deployment.deliver env broker event = deployment.ended broker true) ∨
    deployment.deliver env broker event = deployment.ended broker false := by
  unfold Deployment.deliver
  split
  · next next running => exact Or.inl ⟨next, running, rfl⟩
  · exact Or.inr (Or.inr rfl)
  · next final exited => exact Or.inr (Or.inl ⟨_, final, exited, by simp, rfl⟩)
  · next final exited => exact Or.inr (Or.inl ⟨_, final, exited, by simp, rfl⟩)
  · exact Or.inr (Or.inr rfl)

omit [DecidableEq Key] in
/-- The end of a broker interrupts its clients. -/
theorem Deployment.clients_ended {orderly : Bool} (found : (deployment.ended broker orderly).clients peer = some client) :
    ∃ before, deployment.clients peer = some before ∧
      (client = before ∨ client = before.interrupted deployment.launches) := by
  obtain ⟨before, lookup, rfl⟩ := Option.map_eq_some_iff.mp found
  refine ⟨before, lookup, ?_⟩
  split
  · exact Or.inr rfl
  · exact Or.inl rfl

/-- A delivered event does no more to a client than to interrupt it. -/
theorem Deployment.clients_deliver
    (found : (deployment.deliver env broker event).clients peer = some client) :
    ∃ before, deployment.clients peer = some before ∧
      (client = before ∨ client = before.interrupted deployment.launches) := by
  rcases deployment.deliver_cases env broker event with ⟨_, _, same⟩ | ⟨_, _, _, _, same⟩ | same
  · rw [same] at found
    exact ⟨client, found, Or.inl rfl⟩
  · rw [same] at found
    exact Deployment.clients_ended found
  · rw [same] at found
    exact Deployment.clients_ended found

/-- A grant stays backed when the broker handles an event that does not end the connection of its client. -/
theorem Deployment.Backs.deliver (backs : deployment.Backs env peer grant) (running : deployment.broker = some broker)
    (wf : WellFormed env broker) (enabled : Enabled broker event)
    (connected : ∀ calls, event ≠ .peer peer .connectionInvalid calls) :
    (deployment.deliver env broker event).Backs env peer grant := by
  rcases deployment.deliver_cases env broker event with
    ⟨next, ran, same⟩ | ⟨exit, final, exited, orderly, same⟩ | same
  · rw [same]
    rcases backs with lost | ⟨latest, _, found, key, network, serialization, created, given, holds⟩
    · exact Or.inl lost
    · obtain rfl := Option.some.inj (running.symm.trans found)
      have effect := step_effect wf (step_eq_some.mpr ⟨enabled, ran⟩)
      exact Or.inr ⟨latest, next, rfl, key, network, serialization, created, given, holds.effect wf effect connected⟩
  · rw [same]
    rcases backs with lost | ⟨latest, _, found, key, network, serialization, created, given, holds⟩
    · exact Or.inl lost
    · obtain rfl := Option.some.inj (running.symm.trans found)
      exact absurd (holds.outlives wf enabled exited) orderly
  · rw [same]
    rcases backs with lost | ⟨latest, _⟩
    · exact Or.inl (List.mem_cons_of_mem _ lost)
    · exact Or.inl (latest ▸ List.mem_cons_self ..)

/-- A delivered event keeps a deployment sound, unless it ends the connection of a running client. -/
theorem Deployment.Sound.deliver (sound : deployment.Sound env) (running : deployment.broker = some broker)
    (enabled : Enabled broker event)
    (connected : ∀ peer client, deployment.clients peer = some client →
      ∀ calls, event ≠ .peer peer .connectionInvalid calls) :
    (deployment.deliver env broker event).Sound env := by
  have wf := sound.wf broker running
  refine ⟨?_, ?_, ?_, ?_⟩
  · intro after found
    rcases deployment.deliver_cases env broker event with ⟨next, ran, same⟩ | ⟨_, _, _, _, same⟩ | same
    · rw [same] at found
      obtain rfl := Option.some.inj found
      exact wf.step (step_eq_some.mpr ⟨enabled, ran⟩)
    · rw [same] at found
      contradiction
    · rw [same] at found
      contradiction
  · intro peer client found replied
    obtain ⟨before, lookup, rfl | rfl⟩ := Deployment.clients_deliver found
    · exact sound.called peer client lookup replied
    · rw [ClientProcess.reply_interrupted, Bool.or_eq_true] at replied
      rw [ClientProcess.asking_interrupted]
      exact replied.elim (sound.called peer before lookup) id
  · intro peer client found delivered
    obtain ⟨before, lookup, rfl | rfl⟩ := Deployment.clients_deliver found
    · exact sound.answered peer client lookup delivered
    · rw [ClientProcess.delivered_interrupted] at delivered
      rw [ClientProcess.reply_interrupted, sound.answered peer before lookup delivered, Bool.true_or]
  · intro peer client found grant member
    obtain ⟨before, lookup, changed⟩ := Deployment.clients_deliver found
    have same : client.grants = before.grants := by
      rcases changed with rfl | rfl
      · rfl
      · exact before.grants_interrupted _
    rw [same] at member
    exact (sound.backed peer before lookup grant member).deliver running wf enabled (connected peer before lookup)

end Deliver

end VmnetBroker
