import Mathlib.Data.List.Basic

/-!
# Bytes

Facts about `UInt8` that codecs over MIDI-style data bytes rest on: the upper seven bits of a byte
(`high7`), single bits (`bit`), nibbles, and the masks that keep or clear them. A mask of low bits
is a remainder and a shift that of the value (`toNat_and_7F`, `toNat_shiftRight`), so that most facts are
arithmetic; where a mask is neither, a fact about one byte is checked over its 256 values
(`forall_byte`).
-/

namespace Bytes

/-- A decidable fact about a byte is a finite check. -/
theorem forall_byte {P : UInt8 → Prop} (h : ∀ n < 256, P (UInt8.ofNat n)) (x : UInt8) : P x := by
  have hx := h x.toNat x.toNat_lt
  rwa [UInt8.ofNat_toNat] at hx

/-! ## Masks and shifts -/

theorem toNat_and_7F (x : UInt8) : (x &&& 0x7F).toNat = x.toNat % 128 := by
  rw [UInt8.toNat_and]
  exact Nat.and_two_pow_sub_one_eq_mod x.toNat 7

theorem toNat_and_0F (x : UInt8) : (x &&& 0x0F).toNat = x.toNat % 16 := by
  rw [UInt8.toNat_and]
  exact Nat.and_two_pow_sub_one_eq_mod x.toNat 4

theorem toNat_shiftRight (x : UInt8) {k : Nat} (hk : k < 8) :
    (x >>> UInt8.ofNat k).toNat = x.toNat >>> k := by
  have hmod : (UInt8.ofNat k).toNat % 8 = k := by
    rw [UInt8.toNat_ofNat']; omega
  rw [UInt8.toNat_shiftRight, hmod]

theorem and_7F_of_lt (x : UInt8) (h : x < 128) : x &&& 0x7F = x := by
  apply UInt8.toNat_inj.1
  rw [toNat_and_7F]
  exact Nat.mod_eq_of_lt (UInt8.lt_iff_toNat_lt.1 h)

theorem and_7F_lt (x : UInt8) : x &&& 0x7F < 128 := by
  rw [UInt8.lt_iff_toNat_lt, toNat_and_7F]
  exact Nat.mod_lt _ (by decide)

theorem and_7F_idem (x : UInt8) : x &&& 0x7F &&& 0x7F = x &&& 0x7F := and_7F_of_lt _ (and_7F_lt x)

theorem and_0F_of_lt (x : UInt8) (h : x < 16) : x &&& 0x0F = x := by
  apply UInt8.toNat_inj.1
  rw [toNat_and_0F]
  exact Nat.mod_eq_of_lt (UInt8.lt_iff_toNat_lt.1 h)

theorem and_0F_lt (x : UInt8) : x &&& 0x0F < 16 := by
  rw [UInt8.lt_iff_toNat_lt, toNat_and_0F]
  exact Nat.mod_lt _ (by decide)

theorem ofNat_and_FF (x : UInt8) : UInt8.ofNat (x.toNat &&& 0xFF) = x := by
  have hmask : x.toNat &&& 0xFF = x.toNat % 256 := Nat.and_two_pow_sub_one_eq_mod x.toNat 8
  rw [hmask, Nat.mod_eq_of_lt x.toNat_lt, UInt8.ofNat_toNat]

theorem or_and_distrib (x y z : UInt8) : (x ||| y) &&& z = x &&& z ||| y &&& z := by
  apply UInt8.toNat_inj.1
  simp only [UInt8.toNat_and, UInt8.toNat_or]
  exact Nat.and_or_distrib_right ..

/-- A status byte's high nibble is its kind. -/
theorem status_kind (x : UInt8) : (0xB0 ||| (x &&& 0x0F)) &&& 0xF0 = 0xB0 := by
  have hlow : x &&& 0x0F &&& 0xF0 = 0 := by
    rw [UInt8.and_assoc]
    exact UInt8.and_zero
  rw [or_and_distrib, hlow]
  rfl

/-- A status byte's low nibble is its channel. -/
theorem status_channel (x : UInt8) : (0xB0 ||| (x &&& 0x0F)) &&& 0x0F = x &&& 0x0F := by
  have hlow : x &&& 0x0F &&& 0x0F = x &&& 0x0F := by
    rw [UInt8.and_assoc]
    rfl
  rw [or_and_distrib, hlow]
  exact UInt8.zero_or

/-- A status byte is its kind plus its channel. -/
theorem status_byte {c : UInt8} (h : c < 16) : 0xB0 ||| c = UInt8.ofNat (0xB0 + c.toNat) := by
  have hlt : c.toNat < 2 ^ 4 := UInt8.lt_iff_toNat_lt.1 h
  have hor : 0xB0 ||| c.toNat = 0xB0 + c.toNat := (Nat.shiftLeft_add_eq_or_of_lt hlt 11).symm
  apply UInt8.toNat_inj.1
  rw [UInt8.toNat_or, UInt8.toNat_ofNat', Nat.mod_eq_of_lt (by omega)]
  exact hor

theorem and_80_ne_zero (x : UInt8) : x &&& 0x80 ≠ 0 ↔ 0x80 ≤ x := by
  revert x
  exact forall_byte (by decide +kernel)

/-! ## The upper seven bits -/

/-- The upper seven bits of `x`. -/
def high7 (x : UInt8) : UInt8 := (x >>> 1) &&& 0x7F

/-- Shifting the upper seven bits back clears the lowest bit. -/
theorem high7_shiftLeft (x : UInt8) : high7 x <<< 1 = x &&& 0xFE := by
  revert x
  exact forall_byte (by decide +kernel)

theorem high7_and_7F (x : UInt8) : high7 x &&& 0x7F = high7 x := and_7F_of_lt _ (and_7F_lt _)

/-! ## Single bits -/

/-- Bit `b` of `x`. -/
def bit (x : UInt8) (b : Fin 8) : Bool := x.toBitVec.getLsbD b

theorem shiftRight_and_one (x : UInt8) (b : Fin 8) :
    (x >>> UInt8.ofNat b) &&& 0x01 = if bit x b then 1 else 0 := by
  have hbit : bit x b = decide (x.toNat / 2 ^ b.val % 2 = 1) := Nat.testBit_eq_decide_div_mod_eq
  apply UInt8.toNat_inj.1
  rw [UInt8.toNat_and, toNat_shiftRight x b.isLt, Nat.shiftRight_eq_div_pow, hbit]
  show _ &&& 1 = _
  rw [Nat.and_one_is_mod]
  rcases Nat.mod_two_eq_zero_or_one (x.toNat / 2 ^ b.val) with h | h <;> simp [h]

theorem bit_xor (x y : UInt8) (b : Fin 8) : bit (x ^^^ y) b = (bit x b ^^ bit y b) := by
  simp [bit]

@[simp] theorem bit_zero (b : Fin 8) : bit 0 b = false := by
  revert b
  decide

@[simp] theorem bit_0xFF (b : Fin 8) : bit 0xFF b = true := by
  revert b
  decide

end Bytes
