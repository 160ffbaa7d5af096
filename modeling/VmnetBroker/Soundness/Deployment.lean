import VmnetBroker.Proofs.Deployment

/-! # What clients hold, across broker processes

Brokers come and go: they exit when they are idle or signalled, they may fail to start, and a fault or a
failed listener may end one that serves. Whatever the order of all this, a network that a client was given is
held for it by the running broker, unless the broker that gave it ended while it served. Clients that were
given the same name have therefore the same network, and no call is ever stuck.
-/

namespace VmnetBroker

variable {Key : Type} [DecidableEq Key] {env : Environment Key} {deployment next : Deployment Key}
  {broker : Broker Key} {peer : Connection} {client : ClientProcess} {name : CString} {calls : Calls}

section Moves

/-- The broker sends a message for every request of a client, or ends. -/
theorem response_cases (wf : WellFormed env broker)
    (enabled : Enabled broker (.peer peer (.dictionary (acquireRequest name)) calls)) :
    (∃ next ctx result core, outcome env broker (.peer peer (.dictionary (acquireRequest name)) calls) = .running next ∧
      broker.peers.lookup peer = some ctx ∧
      RequestEffect env broker peer ctx (acquireRequest name) calls result core ∧ core.Matches next ∧
      response env broker peer calls (acquireRequest name) = some (.dictionary (replyBody result))) ∨
    response env broker peer calls (acquireRequest name) = some .error := by
  have effect := outcome_effect wf enabled
  generalize ran : outcome env broker (.peer peer (.dictionary (acquireRequest name)) calls) = after at effect
  cases effect with
  | running stepped =>
    cases stepped with
    | ignored harmless => contradiction
    | @requested _ ctx _ _ result core _ found effect same replied =>
      exact Or.inl ⟨_, ctx, result, core, rfl, found, effect, same, response_eq ran replied⟩
  | shutdown stops => cases stops
  | nullKey requested invalid => exact Or.inr (by simp only [response, ran])

theorem exists_response (wf : WellFormed env broker)
    (enabled : Enabled broker (.peer peer (.dictionary (acquireRequest name)) calls)) :
    ∃ reply, response env broker peer calls (acquireRequest name) = some reply := by
  rcases response_cases wf enabled with ⟨_, _, _, _, _, _, _, _, sent⟩ | ended
  · exact ⟨_, sent⟩
  · exact ⟨_, ended⟩

/-- A network that the client decodes from the response to its request is held for it. -/
theorem holds_of_response (wf : WellFormed env broker)
    (enabled : Enabled broker (.peer peer (.dictionary (acquireRequest name)) calls)) {reply : Reply}
    (received : response env broker peer calls (acquireRequest name) = some reply) {object : XpcObject}
    (decoded : (decodeReply reply).1 = some object) :
    ∃ next, outcome env broker (.peer peer (.dictionary (acquireRequest name)) calls) = .running next ∧
      ∃ key network serialization, env.createWithCString name = some key ∧
        object = .serialization serialization ∧ next.Holds peer key network serialization := by
  rcases response_cases wf enabled with ⟨next, ctx, result, core, ran, found, effect, same, sent⟩ | ended
  · obtain rfl := Option.some.inj (sent.symm.trans received)
    obtain ⟨_ | serialization, code⟩ := result
    · have refused : (decodeReply (.dictionary (replyBody (none, code)))).1 = none := by
        simp only [decodeReply]
        split <;> rfl
      rw [refused] at decoded
      contradiction
    · obtain rfl : XpcObject.serialization serialization = object := Option.some.inj decoded
      have requested : (acquireRequest name).acquires = some name := rfl
      have grant : granted env broker (.peer peer (.dictionary (acquireRequest name)) calls) =
          some (peer, name, serialization) := by
        cases effect with
        | acquire asked created acquired effect =>
          obtain rfl := Option.some.inj (requested.symm.trans asked)
          simp only [granted, requested, acquired]
      obtain ⟨key, network, created, holds⟩ := effect.holds found grant
      exact ⟨next, ran, key, network, serialization, created, rfl, holds.of_matches same⟩
  · obtain rfl := Option.some.inj (ended.symm.trans received)
    contradiction

/-- One client changes; what it was given stays backed. -/
theorem Deployment.Sound.setClient (sound : deployment.Sound env) {client : Option ClientProcess}
    (called : ∀ new, client = some new → new.reply.isSome = true → new.asking.isSome = true)
    (answered : ∀ new, client = some new → new.delivered = true → new.reply.isSome = true)
    (backed : ∀ new, client = some new → ∀ grant ∈ new.grants, deployment.Backs env peer grant) :
    (deployment.setClient peer client).Sound env where
  wf := sound.wf
  called other new found replied := by
    by_cases same : other = peer
    · subst same
      exact called new (by simpa [Deployment.setClient] using found) replied
    · exact sound.called other new (by simpa [Deployment.setClient, same] using found) replied
  answered other new found delivered := by
    by_cases same : other = peer
    · subst same
      exact answered new (by simpa [Deployment.setClient] using found) delivered
    · exact sound.answered other new (by simpa [Deployment.setClient, same] using found) delivered
  backed other new found grant member := by
    by_cases same : other = peer
    · subst same
      exact backed new (by simpa [Deployment.setClient] using found) grant member
    · exact sound.backed other new (by simpa [Deployment.setClient, same] using found) grant member

/-- The response to a call is on its way, with what it gives. -/
private theorem Deployment.Sound.serve (sound : deployment.Sound env) (found : deployment.clients peer = some client)
    (running : deployment.broker = some broker) (asking : client.asking = some name)
    (enabled : Enabled broker (.peer peer (.dictionary (acquireRequest name)) calls)) :
    ((deployment.deliver env broker (.peer peer (.dictionary (acquireRequest name)) calls)).setClient peer
      (some (client.served deployment.launches (response env broker peer calls (acquireRequest name))))).Sound
      env := by
  have wf := sound.wf broker running
  have kept := sound.deliver running enabled (fun _ _ _ _ => by simp)
  obtain ⟨reply, received⟩ := exists_response wf enabled
  rw [received]
  apply kept.setClient
  · rintro _ ⟨⟩ _
    simp [ClientProcess.served, asking]
  · rintro _ ⟨⟩ _
    rfl
  · rintro _ ⟨⟩ grant member
    rcases List.mem_append.mp member with old | new
    · have given : grant ∈ client.grants := List.mem_append_left _ old
      exact (sound.backed peer client found grant given).deliver running wf enabled (by simp)
    · simp only [ClientProcess.pending, ClientProcess.served, asking, Option.map_some, Option.mem_toList,
        Option.map_eq_some_iff] at new
      obtain ⟨object, decoded, rfl⟩ := new
      obtain ⟨next, ran, key, network, serialization, created, rfl, holds⟩ :=
        holds_of_response wf enabled received decoded
      have served : deployment.deliver env broker (.peer peer (.dictionary (acquireRequest name)) calls) =
          { deployment with broker := some next } := by
        simp only [Deployment.deliver, ran]
      rw [served]
      exact Or.inr ⟨rfl, next, rfl, key, network, serialization, created, rfl, holds⟩

/-- Every move keeps a deployment sound. -/
theorem Deployment.Sound.turn (sound : deployment.Sound env) {move : Turn}
    (moved : turn env deployment move = some next) : next.Sound env := by
  cases move with
  | start peer =>
    simp only [VmnetBroker.turn, Option.ite_none_right_eq_some, Option.some.injEq] at moved
    obtain ⟨_, rfl⟩ := moved
    apply sound.setClient
    · rintro _ ⟨⟩ replied
      contradiction
    · rintro _ ⟨⟩ delivered
      contradiction
    · rintro _ ⟨⟩ grant member
      contradiction
  | call peer name =>
    obtain ⟨client, found, moved⟩ := Option.bind_eq_some_iff.mp moved
    simp only [Option.ite_none_right_eq_some, Option.some.injEq] at moved
    obtain ⟨free, rfl⟩ := moved
    have idle : client.reply = none := by
      cases replied : client.reply with
      | none => rfl
      | some reply =>
        have asking := sound.called peer client found (by simp [replied])
        simp_all
    apply sound.setClient
    · rintro _ ⟨⟩ _
      rfl
    · rintro _ ⟨⟩ delivered
      exact sound.answered peer client found delivered
    · rintro _ ⟨⟩ grant member
      rw [ClientProcess.grants_call idle] at member
      exact sound.backed peer client found grant member
  | launch listening =>
    simp only [VmnetBroker.turn, Option.ite_none_right_eq_some, Option.some.injEq] at moved
    obtain ⟨absent, rfl⟩ := moved
    refine ⟨?_, sound.called, sound.answered, ?_⟩
    · intro broker found
      cases listening with
      | true =>
        obtain rfl := Option.some.inj found
        exact .initial env
      | false => contradiction
    · intro peer client found grant member
      rcases sound.backed peer client found grant member with lost | ⟨_, broker, running, _⟩
      · exact Or.inl lost
      · rw [running] at absent
        contradiction
  | accept peer =>
    obtain ⟨client, found, moved⟩ := Option.bind_eq_some_iff.mp moved
    obtain ⟨broker, running, moved⟩ := Option.bind_eq_some_iff.mp moved
    simp only [Option.ite_none_right_eq_some, Option.some.injEq] at moved
    obtain ⟨⟨_, _, enabled⟩, rfl⟩ := moved
    exact sound.deliver running enabled (fun _ _ _ _ => by simp)
  | serve peer calls =>
    obtain ⟨client, found, moved⟩ := Option.bind_eq_some_iff.mp moved
    obtain ⟨broker, running, moved⟩ := Option.bind_eq_some_iff.mp moved
    obtain ⟨name, asking, moved⟩ := Option.bind_eq_some_iff.mp moved
    simp only [Option.ite_none_right_eq_some, Option.some.injEq] at moved
    obtain ⟨⟨_, _, enabled⟩, rfl⟩ := moved
    exact sound.serve found running asking enabled
  | receive peer =>
    obtain ⟨client, found, moved⟩ := Option.bind_eq_some_iff.mp moved
    obtain ⟨name, asking, moved⟩ := Option.bind_eq_some_iff.mp moved
    obtain ⟨⟨launch, reply⟩, replied, moved⟩ := Option.bind_eq_some_iff.mp moved
    obtain rfl := Option.some.inj moved
    apply sound.setClient
    · rintro _ ⟨⟩ still
      contradiction
    · rintro _ ⟨⟩ delivered
      contradiction
    · rintro _ ⟨⟩ grant member
      rw [ClientProcess.grants_receive asking replied] at member
      exact sound.backed peer client found grant member
  | terminate peer =>
    obtain ⟨client, found, moved⟩ := Option.bind_eq_some_iff.mp moved
    obtain rfl := Option.some.inj moved
    apply sound.setClient
    · rintro _ ⟨⟩
    · rintro _ ⟨⟩
    · rintro _ ⟨⟩
  | other event =>
    obtain ⟨broker, running, moved⟩ := Option.bind_eq_some_iff.mp moved
    simp only [Option.ite_none_right_eq_some, Option.some.injEq] at moved
    obtain ⟨⟨foreign, enabled⟩, rfl⟩ := moved
    apply sound.deliver running enabled
    rintro peer client found calls rfl
    simp [Deployment.foreign, Event.action, found] at foreign

end Moves

section Runs

variable {turns : List Turn}

theorem Deployment.Sound.initial (env : Environment Key) : ({} : Deployment Key).Sound env where
  wf := by simp
  called := by simp
  answered := by simp
  backed := by simp

theorem Deployment.Sound.run (sound : deployment.Sound env)
    (ran : Machine.run (VmnetBroker.turn env) deployment turns = some next) : next.Sound env := by
  apply Machine.run_invariant (fun _ => True) (Deployment.Sound env) _ sound (fun _ _ => trivial) ran
  intro state move after kept _ moved
  exact kept.turn moved

/-- Whatever a client was given is held for it by the running broker, unless the broker that gave it ended while
it served; and clients that hold the same name, none of them from such a broker, hold the same serialization. -/
theorem clients_share_live_networks (ran : deploy env turns = some deployment) :
    (∀ peer client, deployment.clients peer = some client → ∀ grant ∈ client.networks,
      deployment.Backs env peer grant) ∧
    ∀ first second left right given again, deployment.clients first = some left →
      deployment.clients second = some right → given ∈ left.networks → again ∈ right.networks →
      given.name = again.name → given.launch ∉ deployment.lost → again.launch ∉ deployment.lost →
      given.launch = again.launch ∧ given.serialization = again.serialization := by
  have sound := (Deployment.Sound.initial env).run ran
  have backed : ∀ peer client, deployment.clients peer = some client → ∀ grant ∈ client.networks,
      deployment.Backs env peer grant := by
    intro peer client found grant member
    exact sound.backed peer client found grant (List.mem_append_left _ member)
  refine ⟨backed, ?_⟩
  intro first second left right given again leftFound rightFound mine yours same kept keptToo
  rcases backed first left leftFound given mine with lost | ⟨latest, broker, running, key, _, _, created, gave, holds⟩
  · exact absurd lost kept
  rcases backed second right rightFound again yours with
    lost | ⟨latestToo, other, runningToo, otherKey, _, _, createdToo, gaveToo, holdsToo⟩
  · exact absurd lost keptToo
  obtain rfl := Option.some.inj (running.symm.trans runningToo)
  rw [same] at created
  obtain rfl := Option.some.inj (created.symm.trans createdToo)
  obtain ⟨registered, value, live, stored⟩ := holdsToo.1, holdsToo.2.1
  refine ⟨latest.trans latestToo.symm, ?_⟩
  rw [gave, gaveToo, holds.serialization_eq registered live stored]

/-- The first client waits through a broker that cannot listen and one that a signal ends; the second joins it. -/
def twoClients : List Turn :=
  [.start 1, .call 1 (.ofString "shared"), .launch false, .launch true, .other .signal, .launch true, .accept 1,
    .serve 1 { calloc := some 16 }, .receive 1, .start 2, .call 2 (.ofString "shared"), .accept 2, .serve 2 {},
    .receive 2]

private theorem twoClients_checked : ∃ deployment left right, deploy builtinEnvironment twoClients = some deployment ∧
    deployment.clients 1 = some left ∧ deployment.clients 2 = some right ∧ deployment.lost = [] ∧
    left.networks = [⟨.ofString "shared", 3, .serialization ⟨.serialization, 3⟩⟩] ∧
    right.networks = [⟨.ofString "shared", 3, .serialization ⟨.serialization, 3⟩⟩] := by
  have checked : (deploy builtinEnvironment twoClients).bind (fun deployment =>
      (deployment.clients 1).bind fun left => (deployment.clients 2).map fun right =>
        (deployment.lost, left.networks, right.networks)) =
      some ([], [⟨.ofString "shared", 3, .serialization ⟨.serialization, 3⟩⟩],
        [⟨.ofString "shared", 3, .serialization ⟨.serialization, 3⟩⟩]) := by decide +kernel
  obtain ⟨deployment, ran, rest⟩ := Option.bind_eq_some_iff.mp checked
  obtain ⟨left, leftFound, rest⟩ := Option.bind_eq_some_iff.mp rest
  obtain ⟨right, rightFound, observed⟩ := Option.map_eq_some_iff.mp rest
  simp only [Prod.mk.injEq] at observed
  exact ⟨deployment, left, right, ran, leftFound, rightFound, observed⟩

theorem clients_share_live_networks_twoClients : ∃ deployment left right given again,
    deploy builtinEnvironment twoClients = some deployment ∧ deployment.clients 1 = some left ∧
    deployment.clients 2 = some right ∧ given ∈ left.networks ∧ again ∈ right.networks ∧
    given.serialization = again.serialization := by
  obtain ⟨deployment, left, right, ran, leftFound, rightFound, lost, mine, yours⟩ := twoClients_checked
  refine ⟨deployment, left, right, _, _, ran, leftFound, rightFound, mine ▸ List.mem_cons_self ..,
    yours ▸ List.mem_cons_self .., ?_⟩
  exact ((clients_share_live_networks ran).2 1 2 left right _ _ leftFound rightFound (mine ▸ List.mem_cons_self ..)
    (yours ▸ List.mem_cons_self ..) rfl (by simp [lost]) (by simp [lost])).2

/-- Nothing that the broker is given here can end it while it serves. -/
def Event.Benign : Event → Prop
  | .listener .error => False
  | .peer _ (.dictionary message) _ => ∀ name, message.acquires = some name → name.ValidUtf8
  | .peer _ .connectionInvalid calls => calls.dispatchSourceCreate = true
  | _ => True

/-- Names are UTF-8, dispatch sources can be created, and the listener does not fail. -/
def Turn.Benign : Turn → Prop
  | .call _ name => name.ValidUtf8
  | .other event => event.Benign
  | _ => True

/-- A benign event loses no broker. -/
theorem Deployment.lost_deliver (wf : WellFormed env broker) {event : Event} (enabled : Enabled broker event)
    (benign : event.Benign) : (deployment.deliver env broker event).lost = deployment.lost := by
  have effect := outcome_effect wf enabled
  unfold Deployment.deliver
  generalize outcome env broker event = after at effect
  cases effect with
  | running => rfl
  | @shutdown _ exit _ stops =>
    cases exit with
    | listenerFailed => cases event <;> contradiction
    | idleTimeout | signal => rfl
  | listenerFailed => contradiction
  | nullKey requested invalid => exact absurd (benign _ requested) invalid
  | sourceCreateFailed uncreated => exact absurd (benign.symm.trans uncreated) (by simp)

/-- The invariant of benign deployments. -/
structure Deployment.Intact (env : Environment Key) (deployment : Deployment Key) : Prop
    extends Deployment.Sound env deployment where
  lost : deployment.lost = []
  valid : ∀ peer client name, deployment.clients peer = some client → client.asking = some name → name.ValidUtf8

namespace Deployment.Intact

theorem deliver (intact : deployment.Intact env) {event : Event} (running : deployment.broker = some broker)
    (enabled : Enabled broker event) (benign : event.Benign)
    (kept : (deployment.deliver env broker event).Sound env) : (deployment.deliver env broker event).Intact env where
  toSound := kept
  lost := (Deployment.lost_deliver (intact.wf broker running) enabled benign).trans intact.lost
  valid peer client name found asking := by
    obtain ⟨before, lookup, rfl | rfl⟩ := Deployment.clients_deliver found
    · exact intact.valid peer client name lookup asking
    · rw [ClientProcess.asking_interrupted] at asking
      exact intact.valid peer before name lookup asking

/-- One client changes to another with a valid name. -/
theorem setClient (intact : deployment.Intact env) {client : Option ClientProcess}
    (valid : ∀ new name, client = some new → new.asking = some name → name.ValidUtf8)
    (kept : (deployment.setClient peer client).Sound env) : (deployment.setClient peer client).Intact env where
  toSound := kept
  lost := intact.lost
  valid other new name found asking := by
    by_cases same : other = peer
    · subst same
      exact valid new name (by simpa [Deployment.setClient] using found) asking
    · exact intact.valid other new name (by simpa [Deployment.setClient, same] using found) asking

/-- A benign move keeps a deployment intact. -/
theorem turn (intact : deployment.Intact env) {move : Turn} (benign : move.Benign)
    (moved : turn env deployment move = some next) : next.Intact env := by
  have kept := intact.toSound.turn moved
  cases move with
  | start peer =>
    simp only [VmnetBroker.turn, Option.ite_none_right_eq_some, Option.some.injEq] at moved
    obtain ⟨_, rfl⟩ := moved
    apply intact.setClient _ kept
    rintro _ name ⟨⟩ asking
    contradiction
  | call peer name =>
    obtain ⟨client, found, moved⟩ := Option.bind_eq_some_iff.mp moved
    simp only [Option.ite_none_right_eq_some, Option.some.injEq] at moved
    obtain ⟨_, rfl⟩ := moved
    apply intact.setClient _ kept
    rintro _ _ ⟨⟩ ⟨⟩
    exact benign
  | launch listening =>
    simp only [VmnetBroker.turn, Option.ite_none_right_eq_some, Option.some.injEq] at moved
    obtain ⟨_, rfl⟩ := moved
    exact ⟨kept, intact.lost, intact.valid⟩
  | accept peer =>
    obtain ⟨client, found, moved⟩ := Option.bind_eq_some_iff.mp moved
    obtain ⟨broker, running, moved⟩ := Option.bind_eq_some_iff.mp moved
    simp only [Option.ite_none_right_eq_some, Option.some.injEq] at moved
    obtain ⟨⟨_, _, enabled⟩, rfl⟩ := moved
    exact intact.deliver running enabled trivial kept
  | serve peer calls =>
    obtain ⟨client, found, moved⟩ := Option.bind_eq_some_iff.mp moved
    obtain ⟨broker, running, moved⟩ := Option.bind_eq_some_iff.mp moved
    obtain ⟨name, asking, moved⟩ := Option.bind_eq_some_iff.mp moved
    simp only [Option.ite_none_right_eq_some, Option.some.injEq] at moved
    obtain ⟨⟨_, _, enabled⟩, rfl⟩ := moved
    have valid := intact.valid peer client name found asking
    have served : (Event.peer peer (.dictionary (acquireRequest name)) calls).Benign := by
      rintro _ ⟨⟩
      exact valid
    have delivered := intact.toSound.deliver running enabled (fun _ _ _ _ => by simp)
    apply (intact.deliver running enabled served delivered).setClient _ kept
    rintro _ other ⟨⟩ same
    obtain rfl := Option.some.inj (asking.symm.trans same)
    exact valid
  | receive peer =>
    obtain ⟨client, found, moved⟩ := Option.bind_eq_some_iff.mp moved
    obtain ⟨name, asking, moved⟩ := Option.bind_eq_some_iff.mp moved
    obtain ⟨⟨launch, reply⟩, replied, moved⟩ := Option.bind_eq_some_iff.mp moved
    obtain rfl := Option.some.inj moved
    apply intact.setClient _ kept
    rintro _ other ⟨⟩ still
    contradiction
  | terminate peer =>
    obtain ⟨client, found, moved⟩ := Option.bind_eq_some_iff.mp moved
    obtain rfl := Option.some.inj moved
    apply intact.setClient _ kept
    rintro _ _ ⟨⟩
  | other event =>
    obtain ⟨broker, running, moved⟩ := Option.bind_eq_some_iff.mp moved
    simp only [Option.ite_none_right_eq_some, Option.some.injEq] at moved
    obtain ⟨⟨_, enabled⟩, rfl⟩ := moved
    exact intact.deliver running enabled benign kept

end Deployment.Intact

/-- While names are UTF-8, dispatch sources can be created and the listener does not fail, no broker is lost, and
every network that a running client was given is held for it by the running broker, through any number of broker
processes. -/
theorem benign_deployments_lose_nothing (ran : deploy env turns = some deployment)
    (benign : ∀ move ∈ turns, move.Benign) : deployment.lost = [] ∧
      ∀ peer client, deployment.clients peer = some client →
      ∀ grant ∈ client.networks, grant.launch = deployment.launches ∧ ∃ broker, deployment.broker = some broker ∧
        ∃ key network serialization, env.createWithCString grant.name = some key ∧
          grant.serialization = .serialization serialization ∧ broker.Holds peer key network serialization := by
  have intact : deployment.Intact env := by
    apply Machine.run_invariant Turn.Benign (Deployment.Intact env) _ _ benign ran
    · intro state move after kept allowed moved
      exact kept.turn allowed moved
    · exact ⟨.initial env, rfl, by simp⟩
  refine ⟨intact.lost, ?_⟩
  intro peer client found grant member
  have backed := intact.backed peer client found grant (List.mem_append_left _ member)
  rw [Deployment.Backs, intact.lost] at backed
  exact backed.resolve_left (List.not_mem_nil)

theorem benign_deployments_lose_nothing_twoClients : ∃ deployment left grant broker,
    deploy builtinEnvironment twoClients = some deployment ∧ deployment.clients 1 = some left ∧
    grant ∈ left.networks ∧ grant.launch = deployment.launches ∧ deployment.broker = some broker := by
  obtain ⟨deployment, left, _, ran, found, _, _, mine, _⟩ := twoClients_checked
  have valid : (CString.ofString "shared").ValidUtf8 := by decide
  have benign : ∀ move ∈ twoClients, move.Benign := by
    intro move member
    simp only [twoClients, List.mem_cons, List.not_mem_nil, or_false] at member
    rcases member with rfl | rfl | rfl | rfl | rfl | rfl | rfl | rfl | rfl | rfl | rfl | rfl | rfl | rfl <;>
      trivial
  obtain ⟨latest, broker, running, _⟩ :=
    (benign_deployments_lose_nothing ran benign).2 1 left found _ (mine ▸ List.mem_cons_self ..)
  exact ⟨deployment, left, _, broker, ran, found, mine ▸ List.mem_cons_self .., latest, running⟩

end Runs

section Progress

/-- The moves that bring a call of this client to its end. -/
def Turn.advances (peer : Connection) (calls : Calls) : List Turn :=
  [.launch true, .accept peer, .serve peer calls, .receive peer]

/-- So many moves of launchd, the broker and the client itself end the call of this client. -/
def Completes (env : Environment Key) (deployment : Deployment Key) (peer : Connection) (calls : Calls)
    (bound : ℕ) : Prop :=
  ∃ moves next after, moves.length ≤ bound ∧ moves ⊆ Turn.advances peer calls ∧
    Machine.run (turn env) deployment moves = some next ∧ next.clients peer = some after ∧ after.asking = none

theorem Completes.mono {bound larger : ℕ} (within : bound ≤ larger) (completes : Completes env deployment peer calls bound) :
    Completes env deployment peer calls larger := by
  obtain ⟨moves, final, after, length, rest⟩ := completes
  exact ⟨moves, final, after, length.trans within, rest⟩

theorem Completes.cons {move : Turn} {bound : ℕ} (moved : turn env deployment move = some next)
    (member : move ∈ Turn.advances peer calls) (rest : Completes env next peer calls bound) :
    Completes env deployment peer calls (bound + 1) := by
  obtain ⟨moves, final, after, length, advances, ran, found, idle⟩ := rest
  refine ⟨move :: moves, final, after, ?_, List.cons_subset.mpr ⟨member, advances⟩, ?_, found, idle⟩
  · rw [List.length_cons]
    omega
  · rw [Machine.run_cons, moved]
    exact ran

/-- A reply on its way ends the call. -/
theorem completes_of_replied {launch : ℕ} {reply : Reply} (calls : Calls)
    (found : deployment.clients peer = some client) (asking : client.asking = some name)
    (replied : client.reply = some (launch, reply)) : Completes env deployment peer calls 1 := by
  have moved : turn env deployment (.receive peer) =
      some (deployment.setClient peer (some (client.receive name launch reply))) := by
    simp [turn, found, asking, replied]
  have ran : Machine.run (turn env) deployment [.receive peer] =
      some (deployment.setClient peer (some (client.receive name launch reply))) := by
    rw [Machine.run_cons, moved]
    rfl
  exact ⟨_, _, client.receive name launch reply, le_rfl, by simp [Turn.advances], ran, by simp [Deployment.setClient],
    rfl⟩

/-- The broker answers the call of a connected client, if only with an error because it ends. -/
theorem completes_of_connected (wf : WellFormed env broker) (found : deployment.clients peer = some client)
    (asking : client.asking = some name) (waiting : client.reply = none) (untaken : client.delivered = false)
    (running : deployment.broker = some broker) (connected : peer ∈ broker.peers)
    (fresh : ∀ network ∈ calls.calloc, network ∉ broker.heap) : Completes env deployment peer calls 2 := by
  have enabled : Enabled broker (.peer peer (.dictionary (acquireRequest name)) calls) := ⟨connected, fresh⟩
  obtain ⟨reply, received⟩ := exists_response wf enabled
  have moved : turn env deployment (.serve peer calls) =
      some ((deployment.deliver env broker (.peer peer (.dictionary (acquireRequest name)) calls)).setClient peer
        (some (client.served deployment.launches (some reply)))) := by
    simp [turn, found, asking, waiting, untaken, running, enabled, received]
  apply Completes.cons moved (by simp [Turn.advances])
  have answered : ((deployment.deliver env broker (.peer peer (.dictionary (acquireRequest name)) calls)).setClient peer
      (some (client.served deployment.launches (some reply)))).clients peer =
      some (client.served deployment.launches (some reply)) := by
    simp [Deployment.setClient]
  exact completes_of_replied calls answered asking rfl

/-- A running broker accepts the connection of the client first, if it has not. -/
theorem completes_of_running (wf : WellFormed env broker) (found : deployment.clients peer = some client)
    (asking : client.asking = some name) (waiting : client.reply = none) (untaken : client.delivered = false)
    (running : deployment.broker = some broker) (fresh : ∀ network ∈ calls.calloc, network ∉ broker.heap) :
    Completes env deployment peer calls 3 := by
  by_cases connected : peer ∈ broker.peers
  · exact Completes.mono (by omega) (completes_of_connected wf found asking waiting untaken running connected fresh)
  · have enabled : Enabled broker (.listener (.connection peer)) := connected
    have accepted : outcome env broker (.listener (.connection peer)) = .running (broker.welcome peer) := by
      have effect := outcome_effect wf enabled
      generalize outcome env broker (.listener (.connection peer)) = after at effect ⊢
      cases effect with
      | running stepped =>
        cases stepped with
        | ignored harmless => contradiction
        | accepted absent => rfl
      | shutdown stops => contradiction
    have moved : turn env deployment (.accept peer) = some { deployment with broker := some (broker.welcome peer) } := by
      simp [turn, found, asking, waiting, running, enabled, Deployment.deliver, accepted]
    apply Completes.cons moved (by simp [Turn.advances])
    have still : ({ deployment with broker := some (broker.welcome peer) } : Deployment Key).clients peer =
        some client := found
    apply completes_of_connected (wf.accept connected) still asking waiting untaken rfl
    · simp [AList.mem_insert]
    · simpa using fresh

/-- No call is stuck: a message that a broker took has its reply, and wherever a call is, at most four moves of
launchd, the broker and the client end it. -/
theorem calls_complete {turns : List Turn} (ran : deploy env turns = some deployment)
    (found : deployment.clients peer = some client) (asking : client.asking = some name)
    (fresh : ∀ broker, deployment.broker = some broker → ∀ network ∈ calls.calloc, network ∉ broker.heap) :
    (client.delivered = true → client.reply.isSome = true) ∧ Completes env deployment peer calls 4 := by
  have sound := (Deployment.Sound.initial env).run ran
  have answered := sound.answered peer client found
  refine ⟨answered, ?_⟩
  cases replied : client.reply with
  | some reply => exact Completes.mono (by omega) (completes_of_replied calls found asking replied)
  | none =>
    have untaken : client.delivered = false := by
      rw [← Bool.not_eq_true]
      intro delivered
      simpa [replied] using answered delivered
    cases running : deployment.broker with
    | some broker =>
      have wf := sound.wf broker running
      exact Completes.mono (by omega)
        (completes_of_running wf found asking replied untaken running (fresh broker running))
    | none =>
      have moved : turn env deployment (.launch true) =
          some { deployment with broker := some {}, launches := deployment.launches + 1 } := by
        simp [turn, running]
      apply Completes.cons moved (by simp [Turn.advances])
      have still : ({ deployment with broker := some {}, launches := deployment.launches + 1 } :
          Deployment Key).clients peer = some client := found
      exact completes_of_running (.initial env) still asking replied untaken rfl (by simp)

theorem calls_complete_firstCall : ∃ deployment,
    deploy builtinEnvironment [.start 1, .call 1 (.ofString "shared")] = some deployment ∧
    deployment.broker.isNone = true ∧ Completes builtinEnvironment deployment 1 { calloc := some 16 } 4 := by
  have checked : (deploy builtinEnvironment [.start 1, .call 1 (.ofString "shared")]).bind (fun deployment =>
      (deployment.clients 1).map fun client => (deployment.broker.isNone, client.asking)) =
      some (true, some (.ofString "shared")) := by decide +kernel
  obtain ⟨deployment, ran, rest⟩ := Option.bind_eq_some_iff.mp checked
  obtain ⟨client, found, observed⟩ := Option.map_eq_some_iff.mp rest
  obtain ⟨absent, asking⟩ := Prod.mk.inj observed
  refine ⟨deployment, ran, absent, (calls_complete ran found asking ?_).2⟩
  intro broker running
  rw [running] at absent
  contradiction

end Progress

end VmnetBroker
