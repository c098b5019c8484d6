import Irx.Exec.Restart

/-!
# Loads and stores through the union of a GenericValue

`MyInterpreter` copies arrays, and pointers that are narrower than those of the host, between the memory
and the union of a `GenericValue`. The union has eight bytes, and the number of bytes copied comes from the
type. `array_copied_iff` says for which arrays a load followed by a store copies the array.
-/

namespace Irx.Exec
open Irx.Lib

/-- `memcpy` into an object; past its end it is undefined. -/
def copyInto (object bytes : List UInt8) : Except Abort (List UInt8) :=
  if bytes.length ≤ object.length then .ok (bytes ++ object.drop bytes.length)
  else .error .undefined

/-- `memcpy` out of an object. -/
def copyFrom (object : List UInt8) (n : Nat) : Except Abort (List UInt8) :=
  if n ≤ object.length then .ok (object.take n) else .error .undefined

section Embedding

variable {Ty GV Mem : Type} (T : Target Ty GV) (E : Engine GV Mem)
variable (load : Ty → Bytes → Nat → Except Abort GV)

/-- The eight bytes of the union, in the order of the host. -/
def Engine.untyped (Val : GV) : List UInt8 := littleEndian 8 (E.PointerVal Val)

/-- `StoreBytes`, an `unsigned`. -/
def storeBytes (ty : Ty) : Nat := T.getTypeStoreSize ty % 4294967296

/-- The types that `MyInterpreter` copies itself. -/
def copied (ty : Ty) : Bool := T.isArrayTy ty || (T.isPointerTy ty && storeBytes T ty != 8)

/-- `LoadValueFromMemory`, where `load` is that of the execution engine. -/
def LoadValueFromMemory (ty : Ty) (m : Bytes) (Ptr : Nat) : Except Abort GV :=
  if copied T ty then do
    let untyped ← copyInto (List.replicate 8 0) (read m Ptr (storeBytes T ty))
    .ok (E.setPointerVal E.GenericValue (ofLittleEndian untyped))
  else load ty m Ptr

/-- `StoreValueToMemory`: bytes of the union are copied, or the target stores the value. -/
def StoreValueToMemory (Val : GV) (ty : Ty) (m : Bytes) (Ptr : Nat) : Except Abort Bytes :=
  if copied T ty then do
    let bytes ← copyFrom (E.untyped Val) (storeBytes T ty)
    .ok (write m Ptr bytes)
  else .ok (write m Ptr (T.StoreValueToMemory Val ty).1)

/-- A load followed by a store copies as many bytes as the type has, inside the union. -/
def CopiesValue (ty : Ty) : Prop :=
  ∀ m src dst, ∃ Val, LoadValueFromMemory T E load ty m src = .ok Val ∧
    StoreValueToMemory T E Val ty m dst = .ok (write m dst (read m src (T.getTypeStoreSize ty)))

end Embedding

variable {Ty GV Mem : Type} {T : Target Ty GV} {E : Engine GV Mem}
variable {load : Ty → Bytes → Nat → Except Abort GV} {ty : Ty} {m : Bytes} {Ptr : Nat} {Val : GV}

/-- A short text is copied to the start. -/
lemma copyInto_of_le {object bytes : List UInt8} (le : bytes.length ≤ object.length) :
    copyInto object bytes = .ok (bytes ++ object.drop bytes.length) := if_pos le

/-- A start of the object is copied. -/
lemma copyFrom_of_le {object : List UInt8} {n : Nat} (le : n ≤ object.length) :
    copyFrom object n = .ok (object.take n) := if_pos le

/-- A type of up to eight bytes is loaded with zeros above it. -/
lemma LoadValueFromMemory_copied (copy : copied T ty = true) (small : storeBytes T ty ≤ 8) :
    LoadValueFromMemory T E load ty m Ptr =
      .ok (E.setPointerVal E.GenericValue (unsigned m Ptr (storeBytes T ty))) := by
  have le : (read m Ptr (storeBytes T ty)).length ≤ (List.replicate 8 (0 : UInt8)).length := by
    rwa [length_read, List.length_replicate]
  rw [LoadValueFromMemory, if_pos copy, copyInto_of_le le, ok_bind, List.drop_replicate,
    ofLittleEndian_append_zeros, unsigned]

/-- The lowest bytes of the union are stored. -/
lemma StoreValueToMemory_copied (copy : copied T ty = true) (small : storeBytes T ty ≤ 8) :
    StoreValueToMemory T E Val ty m Ptr =
      .ok (write m Ptr (littleEndian (storeBytes T ty) (E.PointerVal Val))) := by
  have le : storeBytes T ty ≤ (E.untyped Val).length := by
    rwa [Engine.untyped, length_littleEndian]
  obtain ⟨above, e⟩ := Nat.exists_eq_add_of_le small
  have front : (E.untyped Val).take (storeBytes T ty) =
      littleEndian (storeBytes T ty) (E.PointerVal Val) := by
    rw [Engine.untyped, e, take_littleEndian]
  rw [StoreValueToMemory, if_pos copy, copyFrom_of_le le, ok_bind, front]

/-- What was loaded into the union is stored from it. -/
lemma StoreValueToMemory_of_load (pointerVal : ∀ v p, E.PointerVal (E.setPointerVal v p) = p)
    (copy : copied T ty = true) (small : storeBytes T ty ≤ 8) {src : Nat}
    (loaded : LoadValueFromMemory T E load ty m src = .ok Val) :
    StoreValueToMemory T E Val ty m Ptr = .ok (write m Ptr (read m src (storeBytes T ty))) := by
  rw [LoadValueFromMemory_copied copy small] at loaded
  cases loaded
  have bytes : littleEndian (storeBytes T ty) (unsigned m src (storeBytes T ty)) =
      read m src (storeBytes T ty) := by
    have same := littleEndian_ofLittleEndian (read m src (storeBytes T ty))
    rwa [length_read] at same
  rw [StoreValueToMemory_copied copy small, pointerVal, bytes]

/-- Nothing larger is loaded. -/
lemma LoadValueFromMemory_large (copy : copied T ty = true) (large : 8 < storeBytes T ty) :
    LoadValueFromMemory T E load ty m Ptr = .error .undefined := by
  have past : ¬ (read m Ptr (storeBytes T ty)).length ≤ (List.replicate 8 (0 : UInt8)).length := by
    rw [length_read, List.length_replicate]
    omega
  rw [LoadValueFromMemory, if_pos copy, copyInto, if_neg past]
  rfl

/-- An array is copied by a load and a store, through the eight bytes of the union, exactly if it has at
most eight bytes. -/
theorem array_copied_iff {Ty GV Mem : Type} {T : Target Ty GV} {E : Engine GV Mem}
    {load : Ty → Bytes → Nat → Except Abort GV} {ty : Ty}
    (pointerVal : ∀ v p, E.PointerVal (E.setPointerVal v p) = p) (array : T.isArrayTy ty = true) :
    CopiesValue T E load ty ↔ T.getTypeStoreSize ty ≤ 8 := by
  have copy : copied T ty = true := by rw [copied, array, Bool.true_or]
  constructor
  · intro copies
    by_contra large
    by_cases small : storeBytes T ty ≤ 8
    case neg =>
      obtain ⟨Val, loaded, _⟩ := copies (fun _ => 0) 0 0
      rw [LoadValueFromMemory_large copy (not_le.1 small)] at loaded
      cases loaded
    case pos =>
      -- the size is cut off to 32 bits, and the ninth byte of the array is not copied
      obtain ⟨m, ninth, other⟩ : ∃ m : Bytes, m 8 = 1 ∧ m 24 = 0 :=
        ⟨fun x => if x = 8 then 1 else 0, rfl, rfl⟩
      obtain ⟨Val, loaded, stored⟩ := copies m 0 16
      rw [StoreValueToMemory_of_load pointerVal copy small loaded] at stored
      have before : write m 16 (Lib.read m 0 (storeBytes T ty)) 24 = m 24 := by
        refine write_outside (.inr ?_)
        rw [length_read]
        omega
      have inside : 8 < T.getTypeStoreSize ty := not_le.1 large
      have after : write m 16 (Lib.read m 0 (T.getTypeStoreSize ty)) 24 = m 8 := by
        simp [write, Lib.read, inside]
      rw [Except.ok.inj stored, after, ninth, other] at before
      cases before
  · intro small m src dst
    have whole : storeBytes T ty = T.getTypeStoreSize ty := Nat.mod_eq_of_lt (by omega)
    have small' : storeBytes T ty ≤ 8 := by rwa [whole]
    have loaded : LoadValueFromMemory T E load ty m src = _ := LoadValueFromMemory_copied copy small'
    refine ⟨_, loaded, ?_⟩
    rw [StoreValueToMemory_of_load pointerVal copy small' loaded, whole]

/-- A target whose types are arrays of as many bytes. -/
def arrayTarget : Target Nat Nat := { dlistTarget with isArrayTy := fun _ => true }

/-- An array of four bytes is copied. -/
theorem array_copied_iff_four :
    CopiesValue arrayTarget dlistEngine (fun _ _ _ => .error .undefined) 4 :=
  (array_copied_iff (T := arrayTarget) (fun _ _ => rfl) rfl).2 (by decide)

/-- The load of an array of sixteen bytes writes past the union. -/
theorem large_array_not_copied :
    LoadValueFromMemory arrayTarget dlistEngine (fun _ _ _ => .error .undefined) 16 (fun _ => 0) 0 =
        .error .undefined ∧
      ¬ CopiesValue arrayTarget dlistEngine (fun _ _ _ => .error .undefined) 16 := by
  have past : LoadValueFromMemory arrayTarget dlistEngine (fun _ _ _ => .error .undefined) 16
      (fun _ => 0) 0 = .error .undefined := rfl
  refine ⟨past, fun copies => ?_⟩
  obtain ⟨Val, loaded, _⟩ := copies (fun _ => 0) 0 0
  cases past.symm.trans loaded

end Irx.Exec
