import VmnetBroker.Model.Client

/-! # What the client makes of a reply

The protocol carries the error code as an int64. The client narrows it to an `int32_t` before the test,
so it reports the code of every `int` and mistakes the codes outside that range: a multiple of 2^32
looks like no error at all. The object is returned exactly with success in every case.
-/

namespace VmnetBroker

/-- The int64 that a reply carries under the error key. -/
def Reply.errorCode : Reply → Option Int64
  | .dictionary body =>
    match body.getValue replyError with
    | some (.int64 code) => some code
    | _ => none
  | .error => none
  | .other => none

/-- The status, read as a C `int`, is the code. -/
def VmnetBrokerReturn.Denotes (status : VmnetBrokerReturn) (code : Int64) : Prop := status.toInt.toInt64 = code

/-- The code fits a C `int`. -/
def FitsInt (code : Int64) : Prop := Int32.minValue.toInt ≤ code.toInt ∧ code.toInt ≤ Int32.maxValue.toInt

/-- The report tells success and failure apart, and names the error of the reply. -/
structure ReportsReply (reply : Reply) (reported : Option XpcObject × VmnetBrokerReturn) : Prop where
  object_iff : reported.1.isSome = true ↔ reported.2 = .success
  error : ∀ code, reply.errorCode = some code → code ≠ 0 → reported.1 = none ∧ reported.2.Denotes code

variable {reply : Reply} {body : Dictionary} {code : Int64} {status : VmnetBrokerReturn}

/-- What a status denotes is an `int`. -/
theorem VmnetBrokerReturn.Denotes.fitsInt (denotes : status.Denotes code) : FitsInt code := by
  rw [← denotes, FitsInt, Int32.toInt_toInt64]
  exact ⟨status.toInt.minValue_le_toInt, status.toInt.toInt_le⟩

/-- Narrowing keeps an `int`. -/
theorem FitsInt.toInt64_toInt32 (fits : FitsInt code) : code.toInt32.toInt64 = code := by
  obtain ⟨least, greatest⟩ := fits
  rw [Int32.toInt_minValue] at least
  rw [Int32.toInt_maxValue] at greatest
  apply Int64.toInt.inj
  rw [Int32.toInt_toInt64, Int64.toInt_toInt32]
  apply Int.bmod_eq_of_le
  · omega
  · omega

/-- A nonzero `int` is not the success status. -/
theorem ne_success_of_ne_zero {error : Int32} (nonzero : error ≠ 0) :
    (⟨error.toUInt32⟩ : VmnetBrokerReturn) ≠ .success := by
  intro same
  apply nonzero
  have raw : error.toUInt32 = 0 := congrArg VmnetBrokerReturn.raw same
  rw [← Int32.toInt32_toUInt32 error, raw]
  rfl

/-- The object is returned exactly with success, whatever the reply is. -/
theorem decodeReply_object_iff (reply : Reply) :
    (decodeReply reply).1.isSome = true ↔ (decodeReply reply).2 = .success := by
  cases reply with
  | error => exact iff_of_false (by simp [decodeReply]) (by simp only [decodeReply]; decide)
  | other => exact iff_of_false (by simp [decodeReply]) (by simp only [decodeReply]; decide)
  | dictionary body =>
    simp only [decodeReply]
    split
    · next failed => exact iff_of_false (by simp) (ne_success_of_ne_zero failed)
    · split
      · exact iff_of_false (by simp) (by decide)
      · exact iff_of_true rfl rfl

theorem getInt64_of_errorCode (carried : (Reply.dictionary body).errorCode = some code) :
    body.getInt64 replyError = code := by
  simp only [Reply.errorCode, Dictionary.getValue] at carried
  simp only [Dictionary.getInt64]
  cases found : body.lookup replyError with
  | none =>
    rw [found] at carried
    contradiction
  | some value =>
    rw [found] at carried
    cases value with
    | int64 stored => exact Option.some.inj carried
    | _ => contradiction

/-- An error that fits is reported as itself. -/
theorem decodeReply_of_fitsInt (carried : reply.errorCode = some code) (nonzero : code ≠ 0) (fits : FitsInt code) :
    (decodeReply reply).1 = none ∧ (decodeReply reply).2.Denotes code := by
  cases reply with
  | error => contradiction
  | other => contradiction
  | dictionary body =>
    have kept := fits.toInt64_toInt32
    have failed : code.toInt32 ≠ 0 := by
      intro zero
      rw [zero] at kept
      exact nonzero kept.symm
    simp only [decodeReply, getInt64_of_errorCode carried, if_pos failed]
    refine ⟨trivial, ?_⟩
    rw [VmnetBrokerReturn.Denotes, VmnetBrokerReturn.toInt, Int32.toInt32_toUInt32]
    exact kept

/-- The client reports a reply faithfully exactly when its error code, if it has one, fits an `int`. -/
theorem client_reports_reply_iff (networkName : CString) (exchange : Message → Reply) :
    ReportsReply (exchange (acquireRequest networkName)) (vmnetBrokerAcquireNetwork networkName exchange) ↔
      ∀ code, (exchange (acquireRequest networkName)).errorCode = some code → FitsInt code := by
  constructor
  · intro reports code carried
    by_cases zero : code = 0
    · subst zero
      exact ⟨by decide, by decide⟩
    · exact (reports.error code carried zero).2.fitsInt
  · intro fits
    refine ⟨decodeReply_object_iff _, ?_⟩
    intro code carried nonzero
    exact decodeReply_of_fitsInt carried nonzero (fits code carried)

/-- A reply of a newer broker: an error code beyond 32 bits, and an object. -/
def wideErrorReply : Reply :=
  .dictionary (((∅ : Dictionary).insert replyNetwork (.other 1)).insert replyError (.int64 0x100000000))

/-- The client takes this error for a success. -/
theorem client_mistakes_wide_error :
    vmnetBrokerAcquireNetwork (.ofString "shared") (fun _ => wideErrorReply) = (some (.other 1), .success) ∧
    wideErrorReply.errorCode = some 0x100000000 ∧
    ¬ ReportsReply wideErrorReply (vmnetBrokerAcquireNetwork (.ofString "shared") fun _ => wideErrorReply) := by
  have decoded : vmnetBrokerAcquireNetwork (.ofString "shared") (fun _ => wideErrorReply) =
      (some (.other 1), .success) := by decide
  have carried : wideErrorReply.errorCode = some 0x100000000 := by decide
  refine ⟨decoded, carried, ?_⟩
  intro reports
  obtain ⟨none, _⟩ := reports.error _ carried (by decide)
  rw [decoded] at none
  contradiction

end VmnetBroker
