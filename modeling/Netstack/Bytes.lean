/-
# Big-endian integers

`read_u16_be`, `read_u32_be`, `write_u16_be` and `write_u32_be`, which every codec under
`src/` defines for itself in the same words.
-/

import Netstack.Library.Memory

namespace Netstack

/-- `read_u16_be` of two bytes. -/
def u16Be (high low : UInt8) : BitVec 16 :=
  high.toBitVec.setWidth 16 <<< 8 ||| low.toBitVec.setWidth 16

/-- `read_u32_be` of four bytes. -/
def u32Be (first second third fourth : UInt8) : BitVec 32 :=
  first.toBitVec.setWidth 32 <<< 24 ||| second.toBitVec.setWidth 32 <<< 16 |||
    third.toBitVec.setWidth 32 <<< 8 ||| fourth.toBitVec.setWidth 32

/-- The bytes that `write_u16_be` writes. -/
def writeU16Be (value : BitVec 16) : List UInt8 :=
  [UInt8.ofBitVec ((value >>> 8).setWidth 8), UInt8.ofBitVec (value.setWidth 8)]

/-- The bytes that `write_u32_be` writes. -/
def writeU32Be (value : BitVec 32) : List UInt8 :=
  [UInt8.ofBitVec ((value >>> 24).setWidth 8), UInt8.ofBitVec ((value >>> 16).setWidth 8),
    UInt8.ofBitVec ((value >>> 8).setWidth 8), UInt8.ofBitVec (value.setWidth 8)]

@[simp] theorem length_writeU16Be (value : BitVec 16) : (writeU16Be value).length = 2 := rfl

@[simp] theorem length_writeU32Be (value : BitVec 32) : (writeU32Be value).length = 4 := rfl

/-- The two bytes do not overlap. -/
theorem u16Be_eq_append (high low : UInt8) : u16Be high low = high.toBitVec ++ low.toBitVec := by
  unfold u16Be
  ext i hi
  simp
  grind

/-- The value of two bytes in network order. -/
theorem u16Be_toNat (high low : UInt8) :
    (u16Be high low).toNat = high.toNat * 256 + low.toNat := by
  have hlow : low.toBitVec.toNat < 2 ^ 8 := low.toNat_lt
  rw [u16Be_eq_append, BitVec.toNat_append, ← Nat.shiftLeft_add_eq_or_of_lt hlow,
    Nat.shiftLeft_eq]
  rfl

/-- What was read is written back. -/
theorem writeU16Be_u16Be (high low : UInt8) : writeU16Be (u16Be high low) = [high, low] := by
  have hhigh : (u16Be high low >>> 8).setWidth 8 = high.toBitVec := by
    unfold u16Be
    ext i hi
    simp
    grind
  have hlow : (u16Be high low).setWidth 8 = low.toBitVec := by
    unfold u16Be
    ext i hi
    simp
  rw [writeU16Be, hhigh, hlow]

/-- What was written is read back. -/
theorem u16Be_writeU16Be (value : BitVec 16) :
    u16Be (UInt8.ofBitVec ((value >>> 8).setWidth 8)) (UInt8.ofBitVec (value.setWidth 8)) =
      value := by
  unfold u16Be
  ext i hi
  simp
  grind

/-- The same for four bytes; the bits of each byte are compared one by one. -/
theorem writeU32Be_u32Be (first second third fourth : UInt8) :
    writeU32Be (u32Be first second third fourth) = [first, second, third, fourth] := by
  have h₁ : (u32Be first second third fourth >>> 24).setWidth 8 = first.toBitVec := by
    unfold u32Be
    ext i hi
    simp
    grind
  have h₂ : (u32Be first second third fourth >>> 16).setWidth 8 = second.toBitVec := by
    unfold u32Be
    ext i hi
    simp
    grind
  have h₃ : (u32Be first second third fourth >>> 8).setWidth 8 = third.toBitVec := by
    unfold u32Be
    ext i hi
    simp
    grind
  have h₄ : (u32Be first second third fourth).setWidth 8 = fourth.toBitVec := by
    unfold u32Be
    ext i hi
    simp
  rw [writeU32Be, h₁, h₂, h₃, h₄]

/-- What was written is read back. -/
theorem u32Be_writeU32Be (value : BitVec 32) :
    u32Be (UInt8.ofBitVec ((value >>> 24).setWidth 8))
      (UInt8.ofBitVec ((value >>> 16).setWidth 8)) (UInt8.ofBitVec ((value >>> 8).setWidth 8))
      (UInt8.ofBitVec (value.setWidth 8)) = value := by
  unfold u32Be
  ext i hi
  simp
  grind

/-- `write_u16_be` at `buffer + offset`. -/
def writeU16At (buffer : List UInt8) (offset : ℕ) (value : BitVec 16) : List UInt8 :=
  buffer.take offset ++ writeU16Be value ++ buffer.drop (offset + 2)

/-- The write replaces two bytes and leaves the others. -/
theorem writeU16At_append {before : List UInt8} {offset : ℕ} (h : before.length = offset)
    (old value : BitVec 16) (after : List UInt8) :
    writeU16At (before ++ writeU16Be old ++ after) offset value =
      before ++ writeU16Be value ++ after := by
  subst h
  rw [writeU16At, List.append_assoc before, List.take_left, ← List.drop_drop, List.drop_left]
  rfl

theorem length_writeU16At {buffer : List UInt8} {offset : ℕ} (h : offset + 2 ≤ buffer.length)
    (value : BitVec 16) : (writeU16At buffer offset value).length = buffer.length := by
  simp only [writeU16At, List.length_append, List.length_take, length_writeU16Be, List.length_drop]
  omega

/-- `read_u16_be` of the bytes at `data + offset`. -/
def readU16Be (data : List UInt8) (offset : ℕ) : Checked (BitVec 16) := do
  let high ← readAt data offset
  let low ← readAt data (offset + 1)
  return u16Be high low

/-- `read_u32_be` of the bytes at `data + offset`. -/
def readU32Be (data : List UInt8) (offset : ℕ) : Checked (BitVec 32) := do
  let first ← readAt data offset
  let second ← readAt data (offset + 1)
  let third ← readAt data (offset + 2)
  let fourth ← readAt data (offset + 3)
  return u32Be first second third fourth

/-- Reading at an offset where two bytes are. -/
theorem readU16Be_of_drop {data rest : List UInt8} {offset : ℕ} {high low : UInt8}
    (h : data.drop offset = high :: low :: rest) :
    readU16Be data offset = .ok (u16Be high low) := by
  have hlow : data.drop (offset + 1) = low :: rest := by
    rw [← List.drop_drop, h]
    rfl
  rw [readU16Be, readAt_of_drop h, readAt_of_drop hlow]
  rfl

/-- Reading at an offset where four bytes are. -/
theorem readU32Be_of_drop {data rest : List UInt8} {offset : ℕ} {first second third fourth : UInt8}
    (h : data.drop offset = first :: second :: third :: fourth :: rest) :
    readU32Be data offset = .ok (u32Be first second third fourth) := by
  have h₁ : data.drop (offset + 1) = second :: third :: fourth :: rest := by
    rw [← List.drop_drop, h]
    rfl
  have h₂ : data.drop (offset + 2) = third :: fourth :: rest := by
    rw [← List.drop_drop, h]
    rfl
  have h₃ : data.drop (offset + 3) = fourth :: rest := by
    rw [← List.drop_drop, h]
    rfl
  rw [readU32Be, readAt_of_drop h, readAt_of_drop h₁, readAt_of_drop h₂, readAt_of_drop h₃]
  rfl

/-! ### Headers -/

/-- Four bytes of a header, one after the other. -/
theorem drop_eq_cons_four {data : List UInt8} {i : ℕ} (h : i + 4 ≤ data.length) :
    data.drop i = data[i] :: data[i + 1] :: data[i + 2] :: data[i + 3] :: data.drop (i + 4) := by
  rw [List.drop_eq_getElem_cons (by omega), List.drop_eq_getElem_cons (by omega),
    List.drop_eq_getElem_cons (by omega), List.drop_eq_getElem_cons (by omega)]

/-- Eight bytes of a header, one after the other. -/
theorem drop_eq_cons_eight {data : List UInt8} {i : ℕ} (h : i + 8 ≤ data.length) :
    data.drop i = data[i] :: data[i + 1] :: data[i + 2] :: data[i + 3] :: data[i + 4] ::
      data[i + 5] :: data[i + 6] :: data[i + 7] :: data.drop (i + 8) := by
  rw [drop_eq_cons_four (by omega), drop_eq_cons_four (by omega)]

/-- Twenty bytes of a header, one after the other. -/
theorem eq_cons_twenty {data : List UInt8} (h : 20 ≤ data.length) : data =
    data[0] :: data[1] :: data[2] :: data[3] :: data[4] :: data[5] :: data[6] :: data[7] ::
      data[8] :: data[9] :: data[10] :: data[11] :: data[12] :: data[13] :: data[14] ::
      data[15] :: data[16] :: data[17] :: data[18] :: data[19] :: data.drop 20 := by
  calc data = data.drop 0 := rfl
    _ = data[0] :: data[1] :: data[2] :: data[3] :: data[4] :: data[5] :: data[6] :: data[7] ::
          data.drop 8 := drop_eq_cons_eight (by omega)
    _ = data[0] :: data[1] :: data[2] :: data[3] :: data[4] :: data[5] :: data[6] :: data[7] ::
          data[8] :: data[9] :: data[10] :: data[11] :: data[12] :: data[13] :: data[14] ::
          data[15] :: data.drop 16 := by rw [drop_eq_cons_eight (i := 8) (by omega)]
    _ = _ := by rw [drop_eq_cons_four (i := 16) (by omega)]

/-- The fixed part of a header, byte by byte, as the parsers index it. -/
theorem take_eq_cons_twenty {data : List UInt8} (h : 20 ≤ data.length) (n : ℕ) :
    data.take (n + 20) =
      data[0] :: data[1] :: data[2] :: data[3] :: data[4] :: data[5] :: data[6] :: data[7] ::
        data[8] :: data[9] :: data[10] :: data[11] :: data[12] :: data[13] :: data[14] ::
        data[15] :: data[16] :: data[17] :: data[18] :: data[19] :: (data.drop 20).take n := by
  conv_lhs => rw [eq_cons_twenty h]
  simp only [List.take_succ_cons]

end Netstack
