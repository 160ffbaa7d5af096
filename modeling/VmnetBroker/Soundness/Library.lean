import VmnetBroker.Proofs.Library
import VmnetBroker.Soundness.Replies
import VmnetBroker.Proofs.Request

/-! # The client libraries over the life of a process

Any number of calls from C and Go, with any replies, and any order of dropping what they returned: nothing
that is gone is touched, and all that remains is one connection and one reference to each serialization that was
not dropped. Every call says what the C function says of the same name and reply.
-/

namespace VmnetBroker

open ClientM

variable {memory : ClientMemory} {handles : List ℕ}

/-- What a caller learns from a result. -/
def Agrees (result : Except VmnetBrokerReturn ℕ) (reported : Option XpcObject × VmnetBrokerReturn) : Prop :=
  match result with
  | .ok _ => reported.1.isSome = true ∧ reported.2 = .success
  | .error status => reported.1 = none ∧ reported.2 = status ∧ status ≠ .success

/-- The name that the C function is given. -/
def LibraryCall.networkName : LibraryCall → CString
  | .c networkName _ => networkName
  | .go networkName _ => .ofBytes networkName

def LibraryCall.reply : LibraryCall → Reply
  | .c _ reply => reply
  | .go _ reply => reply

/-- A result that agrees with the reported pair, as the wrappers make it of the pair in memory. -/
theorem agrees_of_result {result : Option ℕ × VmnetBrokerReturn} {reported : Option XpcObject × VmnetBrokerReturn}
    (consistent : reported.1.isSome = true ↔ reported.2 = .success) (status : result.2 = reported.2)
    (returned : result.1.isSome = reported.1.isSome) : Agrees (result.1.elim (.error result.2) .ok) reported := by
  cases given : result.1 with
  | some handle =>
    rw [given] at returned
    exact ⟨returned.symm, consistent.mp returned.symm⟩
  | none =>
    rw [given] at returned
    have missing : reported.1 = none := Option.not_isSome_iff_eq_none.mp (by simp [← returned])
    refine ⟨missing, status.symm, ?_⟩
    rw [status]
    intro success
    rw [missing] at consistent
    exact absurd (consistent.mpr success) (by simp)

/-- The status goes with the object, for every reply. -/
theorem reported_consistent (networkName : CString) (exchange : Message → Reply) :
    (vmnetBrokerAcquireNetwork networkName exchange).1.isSome = true ↔
      (vmnetBrokerAcquireNetwork networkName exchange).2 = .success := decodeReply_object_iff _

theorem toOption_elim (result : Option ℕ × VmnetBrokerReturn) :
    (result.1.elim (Except.error result.2) .ok : Except VmnetBrokerReturn ℕ).toOption = result.1 := by
  cases result.1 <;> rfl

/-- A string made for the call is freed after it, and the result is kept. -/
theorem run_withString {result : Option ℕ} {after : ClientMemory} {name : ℕ}
    (owned : after.Owned (result.toList ++ name :: handles)) :
    ∃ objects, (release name).run after = some ((), { after with objects := objects }) ∧
      ClientMemory.Owned { after with objects := objects } (result.toList ++ handles) := by
  have mine : name ∈ result.toList ++ name :: handles := List.mem_append_right _ (List.mem_cons_self ..)
  obtain ⟨objects, released, remaining⟩ := run_drop owned mine
  refine ⟨objects, released, ?_⟩
  have nodup := (List.nodup_append.mp owned.nodup).2.1
  have other : name ∉ result.toList := fun again =>
    (List.nodup_append.mp nodup).2.2 name again name (List.mem_cons_self ..) rfl
  rwa [List.erase_append_right _ other, List.erase_cons_head] at remaining

/-- Every call returns, leaves its result and a connection, and tells the caller what the reply says. -/
theorem LibraryCall.run_invoke (call : LibraryCall) (owned : memory.Owned handles) :
    ∃ result after, call.invoke.run memory = some (result, after) ∧
      after.Owned (result.toOption.toList ++ handles) ∧ after.connection.isSome = true ∧
      (∀ connection, memory.connection = some connection → after.connection = some connection) ∧
      Agrees result (vmnetBrokerAcquireNetwork call.networkName fun _ => call.reply) := by
  cases call with
  | c networkName reply =>
    obtain ⟨result, after, ran, kept, connected, same, status, returned⟩ :=
      run_acquireInMemory networkName (fun _ => reply) owned
    refine ⟨result.1.elim (.error result.2) .ok, after, ?_, ?_, connected, same,
      agrees_of_result (reported_consistent _ _) status returned⟩
    · simp only [LibraryCall.invoke, StateT.run_bind, ran, Option.bind_eq_bind, Option.bind_some]
      rfl
    · rwa [toOption_elim]
  | go networkName reply =>
    obtain ⟨result, after, ran, kept, connected, same, status, returned⟩ :=
      run_acquireInMemory (.ofBytes networkName) (fun _ => reply) owned.create
    obtain ⟨objects, freed, remaining⟩ := run_withString kept
    refine ⟨result.1.elim (.error result.2) .ok, { after with objects := objects }, ?_, ?_, connected, same,
      agrees_of_result (reported_consistent _ _) status returned⟩
    · simp only [LibraryCall.invoke, goAcquireNetwork, StateT.run_bind, run_create, ran, freed, Option.bind_eq_bind,
        Option.bind_some]
      cases result.1 <;> rfl
    · rwa [toOption_elim]

/-- The statuses that the header names. -/
def VmnetBrokerReturn.Known (status : VmnetBrokerReturn) : Prop :=
  status ∈ [.success, .xpcFailure, .invalidReply, .notAllowed, .invalidRequest, .notFound, .createFailure, .internalError]

instance : DecidablePred VmnetBrokerReturn.Known := fun status => inferInstanceAs (Decidable (status ∈ _))

theorem vmnetBrokerStrerror_unknown {status : VmnetBrokerReturn} (unknown : ¬ status.Known) :
    vmnetBrokerStrerror status = "(unknown status)" := by
  simp only [VmnetBrokerReturn.Known, List.mem_cons, List.not_mem_nil, or_false, not_or] at unknown
  simp [vmnetBrokerStrerror, unknown]

/-- The messages of the known statuses tell them apart, and from all others. -/
private theorem vmnetBrokerStrerror_known :
    (∀ status : VmnetBrokerReturn, status.Known → vmnetBrokerStrerror status ≠ "(unknown status)") ∧
    ∀ first second : VmnetBrokerReturn, first.Known → second.Known →
      vmnetBrokerStrerror first = vmnetBrokerStrerror second → first = second := by
  simp only [VmnetBrokerReturn.Known, List.mem_cons, List.not_mem_nil, or_false]
  constructor
  · rintro status (rfl | rfl | rfl | rfl | rfl | rfl | rfl | rfl) <;> decide
  · rintro first second (rfl | rfl | rfl | rfl | rfl | rfl | rfl | rfl)
      (rfl | rfl | rfl | rfl | rfl | rfl | rfl | rfl) <;> decide

/-- A message of a known status is the message of no other. -/
theorem vmnetBrokerStrerror_inj {status other : VmnetBrokerReturn} (known : status.Known)
    (same : vmnetBrokerStrerror other = vmnetBrokerStrerror status) : other = status := by
  by_cases named : other.Known
  · exact vmnetBrokerStrerror_known.2 other status named known same
  · rw [vmnetBrokerStrerror_unknown named] at same
    exact absurd same.symm (vmnetBrokerStrerror_known.1 status known)

/-- Only the statuses that the header does not name share a message. -/
theorem vmnetBrokerStrerror_eq_iff (status other : VmnetBrokerReturn) :
    vmnetBrokerStrerror status = vmnetBrokerStrerror other ↔ status = other ∨ ¬ status.Known ∧ ¬ other.Known := by
  constructor
  · intro same
    by_cases known : status.Known
    · exact Or.inl (vmnetBrokerStrerror_inj known same.symm).symm
    · by_cases named : other.Known
      · exact Or.inl (vmnetBrokerStrerror_inj named same)
      · exact Or.inr ⟨known, named⟩
  · rintro (rfl | ⟨known, named⟩)
    · rfl
    · rw [vmnetBrokerStrerror_unknown known, vmnetBrokerStrerror_unknown named]

/-- The message for a failed call tells which failure the C function reports, as far as the header names it. -/
theorem Agrees.errorMessage_iff {result : Except VmnetBrokerReturn ℕ}
    {reported : Option XpcObject × VmnetBrokerReturn} (agrees : Agrees result reported) {failure : VmnetBrokerReturn}
    (failed : failure ≠ .success) : errorMessage result = some (vmnetBrokerStrerror failure) ↔
      reported.2 = failure ∨ ¬ reported.2.Known ∧ ¬ failure.Known := by
  cases result with
  | ok handle =>
    obtain ⟨_, success⟩ := agrees
    have named : VmnetBrokerReturn.success.Known := by decide
    rw [success]
    exact iff_of_false (by simp [errorMessage]) fun either => either.elim failed.symm fun unnamed => unnamed.1 named
  | error status =>
    obtain ⟨_, same, _⟩ := agrees
    rw [errorMessage, Option.some.injEq, vmnetBrokerStrerror_eq_iff, same]

section Processes

variable {process later : LibraryProcess} {events more : List LibraryEvent}

/-- The invariant of a client process. -/
def LibraryProcess.Sound (process : LibraryProcess) : Prop := process.memory.Owned process.handles

theorem LibraryProcess.Sound.initial : ({} : LibraryProcess).Sound :=
  ⟨Machine.Store.Balanced.empty, by simp [Machine.Store.Plain], List.nodup_nil⟩

/-- Every event keeps the invariant and the connection. -/
theorem LibraryProcess.Sound.step {event : LibraryEvent} (sound : process.Sound)
    (stepped : libraryStep process event = some later) : later.Sound ∧
      ∀ connection, process.memory.connection = some connection → later.memory.connection = some connection := by
  cases event with
  | call call =>
    obtain ⟨result, after, ran, owned, _, same, _⟩ := call.run_invoke sound
    simp only [libraryStep, ran, Option.map_some, Option.some.injEq] at stepped
    subst stepped
    exact ⟨owned, same⟩
  | drop handle =>
    simp only [libraryStep] at stepped
    split at stepped
    · next mine =>
      obtain ⟨objects, released, owned⟩ := run_drop sound mine
      rw [released] at stepped
      obtain rfl := Option.some.inj stepped
      exact ⟨owned, fun _ same => same⟩
    · contradiction

theorem LibraryProcess.Sound.run (sound : process.Sound) (ran : Machine.run libraryStep process events = some later) :
    later.Sound ∧
      ∀ connection, process.memory.connection = some connection → later.memory.connection = some connection := by
  apply Machine.run_history (fun _ state => state.Sound ∧ ∀ connection,
    process.memory.connection = some connection → state.memory.connection = some connection) _ _ ran
  · exact ⟨sound, fun _ same => same⟩
  · rintro tape middle event target _ ⟨middleSound, kept⟩ stepped
    obtain ⟨targetSound, same⟩ := middleSound.step stepped
    exact ⟨targetSound, fun connection connected => same connection (kept connection connected)⟩

/-- A network from Go, a failure in C, and a second network that is dropped. -/
def mixedCalls : List LibraryEvent :=
  [.call (.go "shared".toUTF8.data.toList (.dictionary (replyBody (some ⟨.serialization, 0⟩, 0)))),
    .call (.c (.ofString "none") (.dictionary (replyBody (none, VmnetBrokerReturn.notFound.toInt)))),
    .call (.go "host".toUTF8.data.toList (.dictionary (replyBody (some ⟨.serialization, 1⟩, 0)))), .drop 9]

end Processes

end VmnetBroker
