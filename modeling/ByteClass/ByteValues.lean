/-!
# Byte values

All 256 byte values in increasing order, and the principle that a fact about
every byte is a table of 256 facts.
-/

namespace ByteClass

def byteValues : List UInt8 :=
  (List.range 256).map UInt8.ofNat

@[simp]
theorem mem_byteValues (byte : UInt8) : byte ∈ byteValues := by
  refine List.mem_map.mpr ⟨byte.toNat, ?_, ?_⟩
  · simpa using byte.toNat_lt
  · simp

@[simp]
theorem length_byteValues : byteValues.length = 256 := by
  simp [byteValues]

/-- A property of every byte follows from its 256 instances. -/
@[elab_as_elim]
theorem forall_byte {motive : UInt8 → Prop}
    (table : ∀ index : Fin 256, motive (UInt8.ofNat index.val)) (byte : UInt8) :
    motive byte := by
  simpa using table ⟨byte.toNat, byte.toNat_lt⟩

end ByteClass
