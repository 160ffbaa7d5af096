import VmnetBroker.Model.Library

/-! # What a call of the library does to the memory of its process

Every function of the library is run once, from a balanced store. A call takes nothing but its result: the message
and the reply are gone when it returns, and with the reply what it held, unless the serialization was retained.
-/

namespace VmnetBroker

open Machine (Store)

open ClientM

variable {memory : ClientMemory} {roots : Multiset ℕ} {object : ℕ}

theorem ClientM.run_create (parts : List ℕ) : (create parts).run memory =
    some (memory.objects.next, { memory with objects := (memory.objects.create parts).2 }) := rfl

theorem ClientM.run_retain (memory : ClientMemory) (balanced : memory.objects.Balanced roots) (live : object ∈ memory.objects.cells) :
    ∃ objects, (retain object).run memory = some ((), { memory with objects := objects }) ∧
      objects.Balanced (object ::ₘ roots) ∧ memory.objects.Within objects := by
  obtain ⟨objects, retained, after⟩ := balanced.retain live
  refine ⟨objects, ?_, after, Store.within_retain retained⟩
  simp only [retain, StateT.run, retained, Option.map_some]

theorem ClientM.run_release (memory : ClientMemory) (balanced : memory.objects.Balanced (object ::ₘ roots)) :
    ∃ objects, (release object).run memory = some ((), { memory with objects := objects }) ∧
      objects.Balanced roots ∧ memory.objects.Within objects := by
  obtain ⟨objects, released, after⟩ := balanced.release
  refine ⟨objects, ?_, after, Store.within_release released⟩
  simp only [release, StateT.run, released, Option.map_some]

/-- The value that a reply carries under the network key. -/
def Reply.carries : Reply → Bool
  | .dictionary body => (body.getValue replyNetwork).isSome
  | .error | .other => false

/-- A received reply is a new object, and so is the value that it holds. -/
theorem run_receive (memory : ClientMemory) (reply : Reply) (balanced : memory.objects.Balanced roots) (plain : memory.objects.Plain) :
    ∃ object value objects, (receive reply).run memory =
        some ((object, value), { memory with objects := objects }) ∧
      objects.Balanced (object ::ₘ roots) ∧ value.isSome = reply.carries ∧
      objects.cells.lookup object = some ⟨1, value.toList⟩ ∧
      (∀ other cell, other ≠ object → objects.cells.lookup other = some cell → cell.parts = []) ∧
      memory.objects.next ≤ object ∧ ∀ held ∈ value, memory.objects.next ≤ held ∧ held ≠ object := by
  have bare : ∃ object value objects, (do return (← create [], none) : ClientM (ℕ × Option ℕ)).run memory =
        some ((object, value), { memory with objects := objects }) ∧
      objects.Balanced (object ::ₘ roots) ∧ value.isSome = false ∧
      objects.cells.lookup object = some ⟨1, value.toList⟩ ∧
      (∀ other cell, other ≠ object → objects.cells.lookup other = some cell → cell.parts = []) ∧
      memory.objects.next ≤ object ∧ ∀ held ∈ value, memory.objects.next ≤ held ∧ held ≠ object := by
    refine ⟨memory.objects.next, none, _, rfl, ?_, rfl, AList.lookup_insert _, ?_, le_rfl, by simp⟩
    · exact balanced.create_bare
    · intro other cell different found
      exact plain.create other cell found
  cases reply with
  | error => exact bare
  | other => exact bare
  | dictionary body =>
    cases carried : body.getValue replyNetwork with
    | none => simpa [receive, carried, Reply.carries] using bare
    | some serialization =>
      have first : (memory.objects.create []).2.Balanced (memory.objects.next ::ₘ roots) := balanced.create_bare
      refine ⟨memory.objects.next + 1, some memory.objects.next, ((memory.objects.create []).2.create
        [memory.objects.next]).2, by simp only [receive, carried]; rfl, ?_, by simp [Reply.carries, carried],
        AList.lookup_insert _, ?_, Nat.le_succ _, ?_⟩
      · exact Store.Balanced.create (by simpa using first)
      · intro other cell different found
        exact plain.create other cell ((AList.lookup_insert_ne different).symm.trans found)
      · rintro held ⟨⟩
        exact ⟨le_rfl, by omega⟩

/-- Decoding agrees with the library, and retains what it returns. -/
theorem run_decodeInMemory (memory : ClientMemory) {value : Option ℕ} (reply : Reply) (balanced : memory.objects.Balanced roots)
    (carried : value.isSome = reply.carries) (live : ∀ held ∈ value, held ∈ memory.objects.cells) :
    ∃ result objects, (decodeInMemory value reply).run memory = some (result, { memory with objects := objects }) ∧
      objects.Balanced ((result.1.toList : Multiset ℕ) + roots) ∧ memory.objects.Within objects ∧
      result.2 = (decodeReply reply).2 ∧ result.1.isSome = (decodeReply reply).1.isSome ∧
      ∀ handle ∈ result.1, handle ∈ value := by
  have unchanged {status : VmnetBrokerReturn} : ∃ result objects,
      (pure (none, status) : ClientM (Option ℕ × VmnetBrokerReturn)).run memory =
        some (result, { memory with objects := objects }) ∧
      objects.Balanced ((result.1.toList : Multiset ℕ) + roots) ∧ memory.objects.Within objects ∧
      result.2 = status ∧ result.1.isSome = false ∧ ∀ handle ∈ result.1, handle ∈ value :=
    ⟨_, _, rfl, by simpa using balanced, .refl _, rfl, rfl, by simp⟩
  cases reply with
  | error => exact unchanged
  | other => exact unchanged
  | dictionary body =>
    by_cases failed : (body.getInt64 replyError).toInt32 = 0
    · simp only [decodeInMemory, decodeReply, failed, ne_eq, not_true_eq_false, if_false]
      cases value with
      | none =>
        have missing : body.getValue replyNetwork = none := by simpa [Reply.carries] using carried.symm
        rw [missing]
        exact unchanged
      | some serialization =>
        obtain ⟨object, found⟩ : ∃ object, body.getValue replyNetwork = some object :=
          Option.isSome_iff_exists.mp (by simpa [Reply.carries] using carried.symm)
        obtain ⟨objects, retained, after, within⟩ := run_retain _ balanced (live serialization rfl)
        refine ⟨(some serialization, .success), objects, ?_, by simpa using after, within, ?_, ?_, by simp⟩
        · simp only [StateT.run_bind, retained, Option.bind_eq_bind, Option.bind_some]
          rfl
        · rw [found]
        · rw [found]
          rfl
    · simp only [decodeInMemory, decodeReply, failed, ne_eq, not_false_eq_true, if_true]
      exact unchanged

/-- The memory of a process: the connection and these serializations, each with one reference. -/
structure ClientMemory.Owned (memory : ClientMemory) (handles : List ℕ) : Prop where
  balanced : memory.objects.Balanced (memory.connection.toList ++ handles : List ℕ)
  plain : memory.objects.Plain
  nodup : (memory.connection.toList ++ handles).Nodup

variable {handles : List ℕ}

/-- What a process owns is older than the next object. -/
theorem ClientMemory.Owned.fresh (owned : memory.Owned handles) :
    ∀ object ∈ memory.connection.toList ++ handles, object < memory.objects.next :=
  fun object member => owned.balanced.fresh object (owned.balanced.mem (Multiset.mem_coe.mpr member))

/-- The first call connects. -/
theorem run_connectToBroker (owned : memory.Owned handles) (unconnected : memory.connection = none) :
    ∃ after connection, connectToBroker.run memory = some ((), after) ∧ after.Owned handles ∧
      after.connection = some connection := by
  have balanced := owned.balanced
  rw [unconnected] at balanced
  refine ⟨_, memory.objects.next, rfl, ⟨?_, owned.plain.create, ?_⟩, rfl⟩
  · exact balanced.create_bare
  · have nodup := owned.nodup
    rw [unconnected] at nodup
    refine List.nodup_cons.mpr ⟨fun member => ?_, nodup⟩
    exact (owned.fresh _ (List.mem_append_right _ member)).false

/-- A call on an open connection leaves its result and nothing else. -/
theorem run_exchangeInMemory (networkName : CString) (exchange : Message → Reply) (owned : memory.Owned handles) :
    ∃ result objects, (exchangeInMemory networkName exchange).run memory =
        some (result, { memory with objects := objects }) ∧
      ClientMemory.Owned { memory with objects := objects } (result.1.toList ++ handles) ∧
      result.2 = (vmnetBrokerAcquireNetwork networkName exchange).2 ∧
      result.1.isSome = (vmnetBrokerAcquireNetwork networkName exchange).1.isSome := by
  obtain ⟨object, value, received, receives, second, carried, holding, others, objectNew, valueNew⟩ :=
    run_receive { memory with objects := (memory.objects.create []).2 } (exchange (acquireRequest networkName))
      owned.balanced.create_bare owned.plain.create
  rw [Multiset.cons_swap] at second
  obtain ⟨sent, releases, third, sentWithin⟩ :=
    run_release { memory with objects := received } second
  have live : ∀ held ∈ value, held ∈ sent.cells := by
    intro held member
    obtain ⟨cell, found⟩ := AList.exists_lookup (third.mem (Multiset.mem_cons_self ..))
    obtain ⟨before, lookup, same⟩ := sentWithin object cell found
    obtain rfl := Option.some.inj (holding.symm.trans lookup)
    exact third.mem_of_part found (by rw [← same]; simpa using member)
  obtain ⟨result, decoded, decodes, fourth, decodedWithin, status, returned, fromReply⟩ :=
    run_decodeInMemory { memory with objects := sent } _ third carried live
  rw [Multiset.add_cons] at fourth
  obtain ⟨final, finishes, balanced, finalWithin⟩ :=
    run_release { memory with objects := decoded } fourth
  have within : received.Within final := (sentWithin.trans decodedWithin).trans finalWithin
  have old : ∀ other ∈ memory.connection.toList ++ handles, other < memory.objects.next := owned.fresh
  have objectOld : object ∉ memory.connection.toList ++ handles := by
    intro member
    have earlier := old object member
    change memory.objects.next + 1 ≤ object at objectNew
    omega
  have handleNew : ∀ handle ∈ result.1, handle ∉ memory.connection.toList ++ handles ∧ handle ≠ object := by
    intro handle member
    obtain ⟨later, different⟩ := valueNew handle (fromReply handle member)
    refine ⟨fun again => ?_, different⟩
    have earlier := old handle again
    change memory.objects.next + 1 ≤ handle at later
    omega
  have gone : object ∉ final.cells := by
    apply balanced.absent
    · rw [Multiset.mem_add, Multiset.mem_coe, Multiset.mem_coe, Option.mem_toList]
      rintro (given | held)
      · exact (handleNew object given).2 rfl
      · exact objectOld held
    · intro other cell found holds
      obtain ⟨before, lookup, same⟩ := within other cell found
      by_cases own : other = object
      · rw [own, holding] at lookup
        cases lookup
        rw [← same, Option.mem_toList] at holds
        exact (valueNew object holds).2 rfl
      · rw [← same, others other before own lookup] at holds
        exact List.not_mem_nil holds
  have order : (result.1.toList ++ (memory.connection.toList ++ handles)).Perm
      (memory.connection.toList ++ (result.1.toList ++ handles)) := List.perm_append_comm_assoc ..
  refine ⟨result, final, ?_, ⟨?_, ?_, ?_⟩, status, returned⟩
  · simp only [exchangeInMemory, StateT.run_bind, run_create, Option.bind_eq_bind, Option.bind_some, receives,
      releases, decodes, finishes]
    rfl
  · rw [Multiset.coe_add, Multiset.coe_eq_coe.mpr order] at balanced
    exact balanced
  · intro other cell found
    obtain ⟨before, lookup, same⟩ := within other cell found
    rw [← same]
    refine others other before ?_ lookup
    rintro rfl
    exact gone (AList.mem_of_lookup found)
  · rw [← order.nodup_iff]
    cases given : result.1 with
    | none => exact owned.nodup
    | some handle => exact List.nodup_cons.mpr ⟨(handleNew handle given).1, owned.nodup⟩

/-- A call leaves its result and a connection, and nothing else; an open connection is the one that is used. -/
theorem run_acquireInMemory (networkName : CString) (exchange : Message → Reply) (owned : memory.Owned handles) :
    ∃ result after, (acquireInMemory networkName exchange).run memory = some (result, after) ∧
      after.Owned (result.1.toList ++ handles) ∧ after.connection.isSome = true ∧
      (∀ connection, memory.connection = some connection → after.connection = some connection) ∧
      result.2 = (vmnetBrokerAcquireNetwork networkName exchange).2 ∧
      result.1.isSome = (vmnetBrokerAcquireNetwork networkName exchange).1.isSome := by
  cases connected : memory.connection with
  | some connection =>
    obtain ⟨result, objects, ran, after, agrees⟩ := run_exchangeInMemory networkName exchange owned
    refine ⟨result, _, ?_, after, by simp [connected], fun _ same => connected.trans same, agrees⟩
    simp only [acquireInMemory, StateT.run_bind, StateT.run_get, Option.pure_def, Option.bind_eq_bind,
      Option.bind_some, connected]
    rw [ran, connected]
  | none =>
    obtain ⟨connecting, connection, connects, opened, set⟩ := run_connectToBroker owned connected
    obtain ⟨result, objects, ran, after, agrees⟩ := run_exchangeInMemory networkName exchange opened
    refine ⟨result, _, ?_, after, by simp [set], by simp, agrees⟩
    simp only [acquireInMemory, StateT.run_bind, StateT.run_get, Option.pure_def, Option.bind_eq_bind,
      Option.bind_some, connected, connects]
    exact ran

/-- A new object belongs to the process. -/
theorem ClientMemory.Owned.create (owned : memory.Owned handles) :
    ClientMemory.Owned { memory with objects := (memory.objects.create []).2 } (memory.objects.next :: handles) := by
  have order : (memory.objects.next :: (memory.connection.toList ++ handles)).Perm
      (memory.connection.toList ++ memory.objects.next :: handles) := List.perm_middle.symm
  refine ⟨?_, owned.plain.create, ?_⟩
  · rw [← Multiset.coe_eq_coe.mpr order]
    exact owned.balanced.create_bare
  · rw [← order.nodup_iff]
    exact List.nodup_cons.mpr ⟨fun member => (owned.fresh _ member).false, owned.nodup⟩

/-- What the process owns it can release, once. -/
theorem run_drop {handle : ℕ} (owned : memory.Owned handles) (mine : handle ∈ handles) :
    ∃ objects, (release handle).run memory = some ((), { memory with objects := objects }) ∧
      ClientMemory.Owned { memory with objects := objects } (handles.erase handle) := by
  have order : (memory.connection.toList ++ handles).Perm
      (handle :: (memory.connection.toList ++ handles.erase handle)) :=
    ((List.perm_cons_erase mine).append_left _).trans List.perm_middle
  have balanced := owned.balanced
  rw [Multiset.coe_eq_coe.mpr order, ← Multiset.cons_coe] at balanced
  obtain ⟨objects, released, after, within⟩ := run_release memory balanced
  exact ⟨objects, released, after, owned.plain.within within, (List.nodup_cons.mp (order.nodup_iff.mp owned.nodup)).2⟩

end VmnetBroker
