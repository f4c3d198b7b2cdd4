import Mathlib.Algebra.Group.Nat.Defs
import FrameServer.Number.Binary64

/-!
# FrameServer.Proofs.Number.Binary64 — integers as 64-bit words

An integer below `2 ^ 53` has a word of its own, so that nothing is lost when it is
compared with other words.

1. **Fields** of a word that is put together from an exponent field and a significand.
2. **Naturals** and **integers** that fit the significand.
3. **Order** of words that are numbers.
-/

namespace FrameServer.Binary64

/-! ## Fields -/

/-- A word without a sign whose exponent field is `field` and whose significand is
`leading + fraction`. -/
structure HasFields (x : Binary64) (field fraction : Nat) : Prop where
  word : x.bits.toNat = field * leading + fraction
  field_pos : 0 < field
  field_lt : field < 2047
  fraction_lt : fraction < leading

namespace HasFields

variable {x : Binary64} {field fraction : Nat}

theorem exponentField_eq (h : HasFields x field fraction) : x.exponentField = field := by
  have hword := h.word
  have hfield := h.field_lt
  have hfraction := h.fraction_lt
  unfold exponentField leading at *
  omega

theorem fraction_eq (h : HasFields x field fraction) : x.fraction = fraction := by
  have hword := h.word
  have hfraction := h.fraction_lt
  unfold Binary64.fraction leading at *
  omega

theorem negative_eq (h : HasFields x field fraction) : x.negative = false := by
  have hword := h.word
  have hfield := h.field_lt
  have hfraction := h.fraction_lt
  unfold negative leading at *
  rw [decide_eq_false_iff_not]
  omega

theorem isNaN_eq (h : HasFields x field fraction) : x.isNaN = false := by
  have hfield := h.field_lt
  unfold isNaN
  rw [h.exponentField_eq, Bool.and_eq_false_iff]
  left
  rw [beq_eq_false_iff_ne]
  omega

theorem magnitude_eq (h : HasFields x field fraction) :
    x.magnitude = (leading + fraction) * Nat.pow 2 (field - 1) := by
  have hfield := h.field_pos
  unfold magnitude significand gapLog
  rw [h.exponentField_eq, h.fraction_eq, if_neg (Nat.pos_iff_ne_zero.mp hfield)]

end HasFields

/-! ## Naturals -/

theorem pow_eq_one {places : Nat} (h : places = 1074) : Nat.pow 2 places = one := by
  unfold one
  congr

theorem roundDiv_one (n : Nat) (tie : Tie) : roundDiv n 1 tie = n := by
  simp [roundDiv, Nat.mod_one]

section Natural

variable {n : Nat}

theorem floorLog2_one (hn : 0 < n) : floorLog2 n 1 = n.log2 := by
  have hone : Nat.log2 1 = 0 := by decide
  have hle := Nat.log2_self_le (Nat.pos_iff_ne_zero.mp hn)
  simp [floorLog2, hone, hle]

/-- The bounds of a significand that was shifted so far that its leading digit is in its
place. -/
theorem significand_bounds (hn : 0 < n) (hsmall : n < 2 ^ 53) :
    n.log2 ≤ 52 ∧ leading ≤ n * 2 ^ (52 - n.log2) ∧ n * 2 ^ (52 - n.log2) < 2 * leading := by
  have hle := Nat.log2_self_le (Nat.pos_iff_ne_zero.mp hn)
  have hlt := @Nat.lt_log2_self n
  have hlog : n.log2 < 53 := (Nat.log2_lt (Nat.pos_iff_ne_zero.mp hn)).mpr hsmall
  have hlower : 2 ^ n.log2 * 2 ^ (52 - n.log2) = leading := by
    rw [← Nat.pow_add, Nat.add_sub_cancel' (Nat.le_of_lt_succ hlog)]
    rfl
  have hupper : 2 ^ (n.log2 + 1) * 2 ^ (52 - n.log2) = 2 * leading := by
    rw [Nat.pow_succ, Nat.mul_right_comm, hlower, Nat.mul_comm]
  have hshift : 0 < 2 ^ (52 - n.log2) := Nat.two_pow_pos _
  refine ⟨Nat.le_of_lt_succ hlog, ?_, ?_⟩
  · rw [← hlower]
    exact Nat.mul_le_mul_right _ hle
  · rw [← hupper]
    exact Nat.mul_lt_mul_of_pos_right hlt hshift

theorem toNat_bits_ofNat (hn : 0 < n) (hsmall : n < 2 ^ 53) :
    (ofNat n).bits.toNat = (n.log2 + 1022) * leading + n * 2 ^ (52 - n.log2) := by
  obtain ⟨hlog, hlower, hupper⟩ := significand_bounds hn hsmall
  have hgap : max ((n.log2 : Int) - 52) (-1074) = -((52 - n.log2 : Nat) : Int) := by omega
  have hshift : (-(-((52 - n.log2 : Nat) : Int))).toNat = 52 - n.log2 := by omega
  have hnone : (-((52 - n.log2 : Nat) : Int)).toNat = 0 := by omega
  have hplace : (-((52 - n.log2 : Nat) : Int) + 1074).toNat = n.log2 + 1022 := by omega
  have hbits : (ofNat n).bits =
      UInt64.ofNat (min ((n.log2 + 1022) * leading + n * 2 ^ (52 - n.log2))
        infinity.bits.toNat) := by
    unfold ofNat ofRatio
    rw [if_neg (Nat.pos_iff_ne_zero.mp hn), floorLog2_one hn]
    dsimp only
    rw [hgap, hshift, hnone, hplace, Nat.pow_eq, Nat.pow_eq, Nat.pow_zero, Nat.mul_one,
      roundDiv_one]
  have hinfinity : infinity.bits.toNat = 2047 * leading := by decide
  rw [hbits, hinfinity, Nat.min_eq_left, UInt64.toNat_ofNat_of_lt']
  · unfold leading UInt64.size at *
    omega
  · unfold leading at *
    omega

theorem hasFields_ofNat (hn : 0 < n) (hsmall : n < 2 ^ 53) :
    HasFields (ofNat n) (n.log2 + 1023) (n * 2 ^ (52 - n.log2) - leading) := by
  obtain ⟨hlog, hlower, hupper⟩ := significand_bounds hn hsmall
  constructor
  · rw [toNat_bits_ofNat hn hsmall]
    unfold leading at *
    omega
  · omega
  · omega
  · omega

/-- A natural number that fits the significand is the value of its word. -/
theorem magnitude_ofNat (hsmall : n < 2 ^ 53) : (ofNat n).magnitude = n * one := by
  rcases Nat.eq_zero_or_pos n with rfl | hn
  · rw [Nat.zero_mul]
    decide
  · obtain ⟨hlog, hlower, -⟩ := significand_bounds hn hsmall
    have hplaces : 52 - n.log2 + (n.log2 + 1023 - 1) = 1074 := by omega
    have hshift : 2 ^ (52 - n.log2) * Nat.pow 2 (n.log2 + 1023 - 1) =
        Nat.pow 2 (52 - n.log2 + (n.log2 + 1023 - 1)) := (Nat.pow_add 2 _ _).symm
    rw [(hasFields_ofNat hn hsmall).magnitude_eq, Nat.add_sub_cancel' hlower, Nat.mul_assoc,
      hshift, pow_eq_one hplaces]

end Natural

/-! ## Integers -/

section Sign

variable {x : Binary64}

/-- Taking the negative of a word without a sign sets the highest bit. -/
theorem toNat_bits_neg (hx : x.bits.toNat < 2 ^ 63) :
    (-x).bits.toNat = x.bits.toNat + 2 ^ 63 := by
  have hxor : (-x).bits.toNat = x.bits.toNat ^^^ 2 ^ 63 := UInt64.toNat_xor _ _
  have hor := Nat.two_pow_add_eq_or_of_lt hx 1
  rw [Nat.mul_one, Nat.add_comm] at hor
  rw [hxor, hor]
  apply Nat.eq_of_testBit_eq
  intro i
  rw [Nat.testBit_xor, Nat.testBit_or, Nat.testBit_two_pow]
  by_cases hi : 63 = i
  · subst hi
    simp [Nat.testBit_lt_two_pow hx]
  · simp [hi]

theorem exponentField_neg (hx : x.bits.toNat < 2 ^ 63) :
    (-x).exponentField = x.exponentField := by
  have hword := toNat_bits_neg hx
  unfold exponentField leading
  omega

theorem fraction_neg (hx : x.bits.toNat < 2 ^ 63) : (-x).fraction = x.fraction := by
  have hword := toNat_bits_neg hx
  unfold fraction leading
  omega

theorem isNaN_neg (hx : x.bits.toNat < 2 ^ 63) : (-x).isNaN = x.isNaN := by
  rw [isNaN, isNaN, exponentField_neg hx, fraction_neg hx]

theorem scaled_neg (hx : x.bits.toNat < 2 ^ 63) : (-x).scaled = -(x.magnitude : Int) := by
  have hword := toNat_bits_neg hx
  have hnegative : (-x).negative = true := by
    unfold negative
    rw [decide_eq_true_eq]
    omega
  have hmagnitude : (-x).magnitude = x.magnitude := by
    unfold magnitude significand gapLog
    rw [exponentField_neg hx, fraction_neg hx]
  rw [scaled, hnegative, hmagnitude, if_pos rfl]

end Sign

/-- The word of a natural number that fits the significand is a number without a sign. -/
theorem ofNat_unsigned {n : Nat} (hsmall : n < 2 ^ 53) :
    (ofNat n).isNaN = false ∧ (ofNat n).negative = false ∧ (ofNat n).bits.toNat < 2 ^ 63 := by
  rcases Nat.eq_zero_or_pos n with rfl | hn
  · decide
  · have hfields := hasFields_ofNat hn hsmall
    refine ⟨hfields.isNaN_eq, hfields.negative_eq, ?_⟩
    have hnegative := hfields.negative_eq
    unfold negative at hnegative
    rw [decide_eq_false_iff_not] at hnegative
    omega

/-- An integer that fits the significand is the value of its word. -/
theorem scaled_ofInt {n : Int} (hsmall : n.natAbs < 2 ^ 53) :
    (ofInt n).isNaN = false ∧ (ofInt n).scaled = n * one := by
  obtain ⟨hnumber, hunsigned, hbits⟩ := ofNat_unsigned hsmall
  have hvalue : ((ofNat n.natAbs).magnitude : Int) = n.natAbs * one := by
    rw [magnitude_ofNat hsmall, Int.natCast_mul]
  unfold ofInt
  split
  · next hneg =>
    have hn : n = -(n.natAbs : Int) := by omega
    refine ⟨(isNaN_neg hbits).trans hnumber, ?_⟩
    rw [scaled_neg hbits, hvalue, ← Int.neg_mul, ← hn]
  · next hpos =>
    have hn : n = n.natAbs := by omega
    refine ⟨hnumber, ?_⟩
    rw [scaled, hunsigned, if_neg Bool.false_ne_true, hvalue, ← hn]

/-! ## Order -/

theorem le_iff {x y : Binary64} :
    x.le y = true ↔ x.isNaN = false ∧ y.isNaN = false ∧ x.scaled ≤ y.scaled := by
  simp [le, and_assoc]

theorem lt_iff {x y : Binary64} :
    x.lt y = true ↔ x.isNaN = false ∧ y.isNaN = false ∧ x.scaled < y.scaled := by
  simp [lt, and_assoc]

end FrameServer.Binary64
