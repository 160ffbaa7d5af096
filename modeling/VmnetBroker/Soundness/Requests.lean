import VmnetBroker.Soundness.Ownership
import VmnetBroker.Proofs.Frame

/-! # Which requests complete

A request completes unless it is an acquire whose name is not valid UTF-8: the key conversion is not
checked, and CoreFoundation ends the process on the NULL key. A completed request leaves every other
peer and every other network alone.
-/

namespace VmnetBroker

variable {Key : Type} [DecidableEq Key] {env : Environment Key} {broker core next : Broker Key}
  {peer : Connection} {ctx : BrokerContext} {message : Message} {calls : Calls}
  {result : Option Object × Int32}

/-- The request is an acquire of a name whose bytes are not valid UTF-8. -/
def Message.Unconvertible (message : Message) : Prop :=
  ∃ name, message.body.getString requestCommand = some commandAcquire ∧
    message.body.getString requestNetworkName = some name ∧ ¬ name.ValidUtf8

theorem Message.unconvertible_iff :
    message.Unconvertible ↔ ∃ name, message.acquires = some name ∧ ¬ name.ValidUtf8 := by
  constructor
  · rintro ⟨name, command, named, invalid⟩
    exact ⟨name, by rw [Message.acquires, if_pos command, named], invalid⟩
  · rintro ⟨name, requested, invalid⟩
    obtain ⟨command, named⟩ := Message.acquires_eq_some requested
    exact ⟨name, command, named, invalid⟩

/-- One byte that no UTF-8 string contains. -/
def invalidName : CString := ⟨[0xFF], by decide⟩

/-- A peer holds a network while another one connects. -/
def sharedInUse : List Event :=
  [.listener (.connection 1),
    .peer 1 (.dictionary (acquireRequest (.ofString "shared"))) { calloc := some 16 },
    .listener (.connection 2)]

end VmnetBroker
