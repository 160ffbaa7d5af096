import Mathlib.Data.List.AList
import Mathlib.Data.List.TakeWhile

/-! # Protocol constants and the XPC values they travel in

The request and reply keys, the command and the status codes are those of `vmnet-broker.h`. An XPC
dictionary is a finite table of typed values; its accessors return the C default (NULL or zero)
for a missing key and for a value of another type. XPC never inspects the bytes of a string.
-/

namespace VmnetBroker

/-- A C string: the bytes before its terminating NUL. -/
structure CString where
  bytes : List UInt8
  nul_free : (0 : UInt8) ∉ bytes
deriving DecidableEq, Repr

namespace CString

/-- The bytes decode under `kCFStringEncodingUTF8`. -/
def ValidUtf8 (text : CString) : Prop := (ByteArray.mk text.bytes.toArray).IsValidUTF8

instance (text : CString) : Decidable text.ValidUtf8 :=
  inferInstanceAs (Decidable (ByteArray.IsValidUTF8 _))

/-- A C literal, read up to its first NUL. -/
def ofString (literal : String) : CString where
  bytes := literal.toUTF8.data.toList.takeWhile (· ≠ 0)
  nul_free member := by simpa using List.mem_takeWhile_imp member

end CString

/-- The reference-counted objects that the broker obtains from other libraries. -/
inductive ObjectKind where
  | network
  | serialization
  | configuration
  | reply
  | source
  | key
deriving DecidableEq, Repr

/-- One external object. Identities are never reused, unlike the addresses of freed memory. -/
structure Object where
  kind : ObjectKind
  id : ℕ
deriving DecidableEq, Repr

/-- An XPC value. Types that neither side reads are collapsed to a tag. -/
inductive XpcObject where
  | string (value : CString)
  | int64 (value : Int64)
  | serialization (object : Object)
  | other (tag : ℕ)
deriving DecidableEq

abbrev Dictionary := AList fun _ : String => XpcObject

namespace Dictionary

/-- `xpc_dictionary_get_string`: NULL unless the key holds a string. -/
def getString (body : Dictionary) (key : String) : Option CString :=
  match body.lookup key with
  | some (.string value) => some value
  | _ => none

/-- `xpc_dictionary_get_int64`: zero unless the key holds an int64. -/
def getInt64 (body : Dictionary) (key : String) : Int64 :=
  match body.lookup key with
  | some (.int64 value) => value
  | _ => 0

/-- `xpc_dictionary_get_value`. -/
def getValue (body : Dictionary) (key : String) : Option XpcObject := body.lookup key

end Dictionary

/-- A dictionary received from a peer. Only a message sent with a reply expected carries the
return address that `xpc_dictionary_create_reply` needs. -/
structure Message where
  body : Dictionary
  replyContext : Bool
deriving DecidableEq

def requestCommand : String := "command"
def requestNetworkName : String := "network_name"
def commandAcquire : CString := .ofString "acquire"
def replyNetwork : String := "network"
def replyError : String := "error"

/-- The name that a well-formed acquire request asks for. -/
def Message.acquires (message : Message) : Option CString :=
  if message.body.getString requestCommand = some commandAcquire then
    message.body.getString requestNetworkName
  else none

/-- `vmnet_broker_return_t`. The C enum is unsigned and may hold codes it does not name. -/
structure VmnetBrokerReturn where
  raw : UInt32
deriving DecidableEq, Repr

namespace VmnetBrokerReturn

def success : VmnetBrokerReturn := ⟨0⟩
def xpcFailure : VmnetBrokerReturn := ⟨1⟩
def invalidReply : VmnetBrokerReturn := ⟨2⟩
def notAllowed : VmnetBrokerReturn := ⟨3⟩
def invalidRequest : VmnetBrokerReturn := ⟨4⟩
def notFound : VmnetBrokerReturn := ⟨5⟩
def createFailure : VmnetBrokerReturn := ⟨6⟩
def internalError : VmnetBrokerReturn := ⟨7⟩

/-- The value of the enumerator as a C `int`. -/
def toInt (status : VmnetBrokerReturn) : Int32 := status.raw.toInt32

end VmnetBrokerReturn

end VmnetBroker
