import Mathlib.Data.Finset.Card
import VmnetBroker.Model.TestClient
import VmnetBroker.Soundness.Isolation

/-! # What the test client reports

Whatever else happens at the broker, the line that the test client prints is decided by its command line, the table
of networks and vmnet: `ok` when every name can be had and at most `MAX_PEER_NETWORKS` of them are distinct, the
status of the first name that cannot be had otherwise.
-/

namespace VmnetBroker

/-- All of these can be had by one peer. -/
def Grantable (policy : CString → VmnetBrokerReturn) (names : List CString) : Prop :=
  (∀ name ∈ names, policy name = .success) ∧ names.dedup.length ≤ maxPeerNetworks

/-- The first interfaces start. -/
def TestVmnet.Starts (vmnet : TestVmnet) (count : ℕ) : Prop :=
  ∀ index < count, vmnet.networkCreate index = none ∧ vmnet.interfaceStart index = none

/-- What the test client prints for these names, and why. -/
inductive TestReports (policy : CString → VmnetBrokerReturn) (vmnet : TestVmnet) (waitError : Option ℤ)
    (names : List CString) : TestOutcome → Prop
  | ok (granted : Grantable policy names) (starts : vmnet.Starts names.length)
      (stops : ∀ index < names.length, vmnet.interfaceStop index = none) (waited : waitError = none) :
      TestReports policy vmnet waitError names .ok
  | refused {before after : List CString} {name : CString} {status : VmnetBrokerReturn}
      (split : names = before ++ name :: after) (granted : Grantable policy before)
      (starts : vmnet.Starts before.length) (new : name ∉ before) (failure : status ≠ .success)
      (decided : status = if before.dedup.length < maxPeerNetworks then policy name else .internalError) :
      TestReports policy vmnet waitError names (.fail "acquire_network" status.toInt.toInt)
  | networkCreate {before after : List CString} {name : CString} {code : ℤ} (split : names = before ++ name :: after)
      (granted : Grantable policy (before ++ [name])) (starts : vmnet.Starts before.length)
      (failed : vmnet.networkCreate before.length = some code) :
      TestReports policy vmnet waitError names (.fail "create_network" code)
  | interfaceStart {before after : List CString} {name : CString} {code : ℤ} (split : names = before ++ name :: after)
      (granted : Grantable policy (before ++ [name])) (starts : vmnet.Starts before.length)
      (created : vmnet.networkCreate before.length = none)
      (failed : vmnet.interfaceStart before.length = some code) :
      TestReports policy vmnet waitError names (.fail "start_interface" code)
  | interfaceStop {index : ℕ} {code : ℤ} (granted : Grantable policy names) (starts : vmnet.Starts names.length)
      (started : index < names.length)
      (stopped : ∀ later, index < later → later < names.length → vmnet.interfaceStop later = none)
      (failed : vmnet.interfaceStop index = some code) :
      TestReports policy vmnet waitError names (.fail "stop_interface" code)
  | wait {code : ℤ} (granted : Grantable policy names) (starts : vmnet.Starts names.length)
      (stops : ∀ index < names.length, vmnet.interfaceStop index = none) (failed : waitError = some code) :
      TestReports policy vmnet waitError names (.fail "kevent" code)

/-- The statuses of a sequence of acquires by a peer that holds these names. -/
def verdicts (policy : CString → VmnetBrokerReturn) : List CString → List CString → List VmnetBrokerReturn
  | _, [] => []
  | held, name :: names =>
    let status := verdict policy held name
    status :: verdicts policy (if status = .success ∧ name ∉ held then held ++ [name] else held) names

section Sessions

variable {policy : CString → VmnetBrokerReturn} {held names before : List CString} {name : CString}

/-- A session answers a sequence of acquires with its verdicts. -/
theorem Session.asked_acquires {session : Session} (connected : session.held = some held) :
    (session.asked policy (names.map acquireRequest)).statuses = session.statuses ++ verdicts policy held names := by
  induction names generalizing session held with
  | nil => simp [Session.asked, verdicts]
  | cons name names ih =>
    have requested : (acquireRequest name).acquires = some name := rfl
    have expected : (acquireRequest name).replyContext = true := rfl
    change ((session.act policy (.request (acquireRequest name))).asked policy (names.map acquireRequest)).statuses = _
    rw [Session.act_request connected, verdicts]
    by_cases granted : verdict policy held name = .success
    · rw [Session.ask_granted requested granted, granted]
      have moved : ((session.tell (acquireRequest name) .success).grant held name).held =
          some (if .success = VmnetBrokerReturn.success ∧ name ∉ held then held ++ [name] else held) := by
        by_cases mine : name ∈ held
        · simp [Session.grant, mine]
        · simp [Session.grant, mine]
      rw [ih moved]
      simp [Session.grant, Session.tell, expected]
    · rw [Session.ask_refused requested granted]
      have kept : (session.tell (acquireRequest name) (verdict policy held name)).held =
          some (if verdict policy held name = .success ∧ name ∉ held then held ++ [name] else held) := by
        rw [if_neg fun both => granted both.1]
        exact connected
      rw [ih kept]
      simp [Session.tell, expected]

/-- These are the names that a peer holds after acquiring those. -/
structure Holds (before held : List CString) : Prop where
  nodup : held.Nodup
  mem_iff : ∀ name, name ∈ held ↔ name ∈ before

theorem Holds.length (holds : Holds before held) : held.length = before.dedup.length := by
  apply List.Perm.length_eq
  rw [List.perm_ext_iff_of_nodup holds.nodup before.nodup_dedup]
  intro name
  rw [holds.mem_iff, List.mem_dedup]

theorem Holds.next (holds : Holds before held) (name : CString) :
    Holds (before ++ [name]) (if name ∉ held then held ++ [name] else held) := by
  split
  · next new =>
    refine ⟨List.nodup_append.mpr ⟨holds.nodup, List.nodup_singleton _, ?_⟩, ?_⟩
    · rintro other member last same rfl
      rw [List.mem_singleton.mp same] at member
      exact new member
    · intro other
      rw [List.mem_append, List.mem_append, holds.mem_iff]
  · next mine =>
    rw [not_not] at mine
    refine ⟨holds.nodup, ?_⟩
    intro other
    rw [List.mem_append, List.mem_singleton, holds.mem_iff]
    constructor
    · exact Or.inl
    · rintro (old | rfl)
      · exact old
      · exact (holds.mem_iff _).mp mine

/-- The verdict on a name after those. -/
theorem Holds.verdict_eq (holds : Holds before held) : verdict policy held name =
    if name ∈ before then .success
    else if before.dedup.length < maxPeerNetworks then policy name else .internalError := by
  unfold verdict
  rw [holds.length]
  simp only [holds.mem_iff, ← not_lt, ite_not]

/-- A name that is had after those can be had with them. -/
theorem Grantable.next (granted : Grantable policy before) (holds : Holds before held)
    (success : verdict policy held name = .success) : Grantable policy (before ++ [name]) := by
  rw [holds.verdict_eq] at success
  have size : (before ++ [name]).dedup.length =
      if name ∈ before then before.dedup.length else before.dedup.length + 1 := by
    rw [← List.card_toFinset, ← List.card_toFinset, List.toFinset_append, Finset.union_comm]
    change (Finset.card (insert name before.toFinset)) = _
    rw [Finset.card_insert_eq_ite]
    simp only [List.mem_toFinset]
  by_cases mine : name ∈ before
  · rw [if_pos mine] at size
    refine ⟨?_, size ▸ granted.2⟩
    intro other member
    rw [List.mem_append, List.mem_singleton] at member
    obtain old | rfl := member
    · exact granted.1 other old
    · exact granted.1 other mine
  · rw [if_neg mine] at size success
    split at success
    · next room =>
      refine ⟨?_, by omega⟩
      intro other member
      rw [List.mem_append, List.mem_singleton] at member
      obtain old | rfl := member
      · exact granted.1 other old
      · exact success
    · cases success

end Sessions

section Outcomes

variable {policy : CString → VmnetBrokerReturn} {vmnet : TestVmnet} {waitError : Option ℤ}
  {all before names held : List CString} {statuses : List VmnetBrokerReturn} {outcome : TestOutcome} {count : ℕ}

/-- `stop_interfaces` fails at the last interface that does not stop. -/
theorem stopInterfaces_cases (vmnet : TestVmnet) (count : ℕ) :
    (stopInterfaces vmnet count = none ∧ ∀ index < count, vmnet.interfaceStop index = none) ∨
    ∃ index code, stopInterfaces vmnet count = some (.fail "stop_interface" code) ∧ index < count ∧
      vmnet.interfaceStop index = some code ∧
      ∀ later, index < later → later < count → vmnet.interfaceStop later = none := by
  induction count with
  | zero => exact Or.inl ⟨rfl, fun index small => absurd small (Nat.not_lt_zero index)⟩
  | succ count ih =>
    rw [stopInterfaces]
    cases failed : vmnet.interfaceStop count with
    | some code =>
      refine Or.inr ⟨count, code, rfl, Nat.lt_succ_self count, failed, ?_⟩
      intro later above below
      omega
    | none =>
      obtain ⟨stopped, all⟩ | ⟨index, code, stopped, small, fails, all⟩ := ih
      · refine Or.inl ⟨stopped, ?_⟩
        intro index small
        obtain smaller | rfl := Nat.lt_succ_iff_lt_or_eq.mp small
        · exact all index smaller
        · exact failed
      · refine Or.inr ⟨index, code, stopped, Nat.lt_succ_of_lt small, fails, ?_⟩
        intro later above below
        obtain smaller | rfl := Nat.lt_succ_iff_lt_or_eq.mp below
        · exact all later above smaller
        · exact failed

/-- Once every interface is started, the outcome is that of the stops and of the wait. -/
theorem finishTest_reports (granted : Grantable policy all) (starts : vmnet.Starts all.length) :
    TestReports policy vmnet waitError all (finishTest vmnet waitError all.length) := by
  rw [finishTest]
  obtain ⟨stopped, stops⟩ | ⟨index, code, stopped, small, failed, later⟩ := stopInterfaces_cases vmnet all.length
  · rw [stopped, Option.getD_none]
    cases waited : waitError with
    | none => exact .ok granted starts stops rfl
    | some code => exact .wait granted starts stops rfl
  · rw [stopped, Option.getD_some]
    exact .interfaceStop granted starts small later failed

theorem startNetwork_notCreated {code : ℤ} (failed : vmnet.networkCreate count = some code) :
    startNetwork vmnet count .success = some (.fail "create_network" code) := by
  rw [startNetwork, if_neg (not_not.mpr rfl), failed]

/-- A round that was granted its network, and could create it, fails or goes on as the interface starts. -/
theorem startNetwork_created (fits : count < maxInterfaces) (created : vmnet.networkCreate count = none) :
    startNetwork vmnet count .success = (vmnet.interfaceStart count).map (.fail "start_interface") := by
  rw [startNetwork, if_neg (not_not.mpr rfl), created]
  exact if_neg (not_le.mpr fits)

/-- One more interface starts. -/
theorem TestVmnet.Starts.next (starts : vmnet.Starts before.length) (created : vmnet.networkCreate before.length = none)
    (started : vmnet.interfaceStart before.length = none) (name : CString) :
    vmnet.Starts (before ++ [name]).length := by
  intro index small
  rw [List.length_append, List.length_singleton] at small
  obtain smaller | rfl := Nat.lt_succ_iff_lt_or_eq.mp small
  · exact starts index smaller
  · exact ⟨created, started⟩

/-- The rest of the rounds, for a client that was granted the networks before. -/
theorem testNetworks_reports (granted : Grantable policy before) (starts : vmnet.Starts before.length)
    (holds : Holds before held) (split : all = before ++ names) (fits : all.length ≤ maxInterfaces)
    (replied : statuses = verdicts policy held (names.take statuses.length))
    (ended : testNetworks vmnet waitError before.length names statuses = some outcome) :
    TestReports policy vmnet waitError all outcome := by
  induction names generalizing before held statuses with
  | nil =>
    rw [List.append_nil] at split
    subst split
    rw [testNetworks] at ended
    obtain rfl := Option.some.inj ended
    exact finishTest_reports granted starts
  | cons name names ih =>
    cases statuses with
    | nil => cases ended
    | cons status statuses =>
      rw [List.length_cons, List.take_succ_cons, verdicts] at replied
      obtain ⟨answered, later⟩ := List.cons.inj replied
      have small : before.length < maxInterfaces := by
        rw [split, List.length_append, List.length_cons] at fits
        omega
      rw [testNetworks] at ended
      by_cases success : status = .success
      · have grantable := granted.next holds (answered.symm.trans success)
        rw [success] at ended
        cases created : vmnet.networkCreate before.length with
        | some code =>
          rw [startNetwork_notCreated created] at ended
          obtain rfl := Option.some.inj ended
          exact .networkCreate split grantable starts created
        | none =>
          rw [startNetwork_created small created] at ended
          cases started : vmnet.interfaceStart before.length with
          | some code =>
            rw [started] at ended
            obtain rfl := Option.some.inj ended
            exact .interfaceStart split grantable starts created started
          | none =>
            rw [started] at ended
            rw [← answered, success] at later
            simp only [true_and] at later
            have count : (before ++ [name]).length = before.length + 1 := by simp
            refine ih grantable (starts.next created started name) (holds.next name) ?_ later ?_
            · rw [split, List.append_assoc, List.singleton_append]
            · rw [count]
              exact ended
      · rw [startNetwork, if_pos success] at ended
        obtain rfl := Option.some.inj ended
        rw [holds.verdict_eq] at answered
        by_cases mine : name ∈ before
        · rw [if_pos mine] at answered
          exact absurd answered success
        · rw [if_neg mine] at answered
          exact .refused split granted starts mine success answered

/-- Once it has all replies, the test client ends. -/
theorem testNetworks_ends (replied : names.length ≤ statuses.length) :
    ∃ outcome, testNetworks vmnet waitError count names statuses = some outcome := by
  induction names generalizing count statuses with
  | nil => exact ⟨_, rfl⟩
  | cons name names ih =>
    cases statuses with
    | nil => cases replied
    | cons status statuses =>
      rw [testNetworks]
      split
      · next failure _ => exact ⟨failure, rfl⟩
      · exact ih (Nat.le_of_succ_le_succ replied)

/-- The networks that `parse_options` leaves fit in the arrays. -/
theorem parseOptions_fits {before quick : Bool} {options : List TestOption} {arguments : List CString}
    (parsed : parseOptions before options arguments = .ok (quick, names)) : names.length ≤ maxInterfaces := by
  induction options generalizing before with
  | nil =>
    rw [parseOptions] at parsed
    split at parsed
    · cases parsed
    · next fits =>
      obtain ⟨-, rfl⟩ := Prod.mk.inj (Except.ok.inj parsed)
      split
      · simp [maxInterfaces]
      · exact not_lt.mp fits
  | cons option options ih =>
    cases option with
    | quick => exact ih parsed
    | help => cases parsed
    | missingArgument => cases parsed
    | invalid => cases parsed

end Outcomes

section Client

variable {Key : Type} [DecidableEq Key] {env : Environment Key} {creatable : CString → Bool} {peer : Connection}
  {before after : List Event} {start final : Broker Key} {options : List TestOption} {arguments names : List CString}
  {quick : Bool} {vmnet : TestVmnet} {waitError : Option ℤ} {statuses : List VmnetBrokerReturn}

end Client

end VmnetBroker
