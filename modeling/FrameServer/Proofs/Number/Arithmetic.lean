import Mathlib
import FrameServer.Proofs.Number.Binary64

/-!
# FrameServer.Proofs.Number.Arithmetic — sums and quotients above zero

A word above zero is normal if its significand has all its digits. Sums of normal words
are normal, and so are quotients of integers that fit the significand: rounding does not
take such a result down to zero.

1. **Normal words** are above zero.
2. **Packing**: a significand with all its digits becomes a normal word, and a normal
   word is unpacked into one.
3. **Rounding** keeps all digits of a significand.
4. **Sums** and **quotients**.
-/

namespace FrameServer.Binary64

open Float.Model (Format UnpackedFloat totalExponent)
open Float.Model.UnpackedFloat (Accuracy ExtendedMantissa packComponents shiftToTargetExponent
  roundWithAccuracy)

variable {x y : Binary64} {field fraction : Nat}

theorem eq_of_toNat_bits_eq (h : x.bits.toNat = y.bits.toNat) : x = y := by
  obtain ⟨bits⟩ := x
  obtain ⟨bits'⟩ := y
  exact congrArg mk (UInt64.toNat_inj.mp h)

theorem pos_of_leading_le {m : Nat} (hm : leading ≤ m) : 0 < m :=
  Nat.lt_of_lt_of_le (by decide) hm

theorem toNat_bits_infinity : infinity.bits.toNat = 2047 * leading := by decide

/-! ## Normal words -/

/-- A word above zero whose leading digit is implicit; infinity counts as one. -/
structure Normal (x : Binary64) : Prop where
  leading_le : leading ≤ x.bits.toNat
  le_infinity : x.bits.toNat ≤ 2047 * leading

theorem HasFields.normal (h : HasFields x field fraction) : Normal x := by
  have hword := h.word
  have hpos := h.field_pos
  have hlt := h.field_lt
  have hfraction := h.fraction_lt
  constructor
  · unfold leading at *
    omega
  · unfold leading at *
    omega

theorem normal_infinity : Normal infinity := by
  constructor <;> decide

/-- Every integer above zero has a normal word. -/
theorem normal_ofNat {n : Nat} (hn : 0 < n) : Normal (ofNat n) := by
  have hne : n ≠ 0 := Nat.pos_iff_ne_zero.mp hn
  unfold ofNat ofRatio
  rw [if_neg hne, floorLog2_one hn]
  dsimp only
  have hplace : 1 ≤ (max ((n.log2 : Int) - 52) (-1074) + 1074).toNat := by omega
  generalize (max ((n.log2 : Int) - 52) (-1074) + 1074).toNat = place at *
  generalize roundDiv _ _ _ = significand
  have hword : leading ≤ place * leading + significand :=
    Nat.le_add_right_of_le (Nat.le_mul_of_pos_left _ hplace)
  have hleast : leading ≤ min (place * leading + significand) infinity.bits.toNat :=
    Nat.le_min.mpr ⟨hword, by decide⟩
  have hmost : min (place * leading + significand) infinity.bits.toNat ≤ 2047 * leading :=
    Nat.le_trans (Nat.min_le_right _ _) (Nat.le_of_eq toNat_bits_infinity)
  generalize min (place * leading + significand) infinity.bits.toNat = word at *
  have hfits : (UInt64.ofNat word).toNat = word :=
    UInt64.toNat_ofNat_of_lt' (Nat.lt_of_le_of_lt hmost (by decide))
  rw [← hfits] at hleast hmost
  exact ⟨hleast, hmost⟩

namespace Normal

theorem eq_infinity_or_hasFields (h : Normal x) :
    x = infinity ∨ ∃ field fraction, HasFields x field fraction := by
  have hle := h.leading_le
  rcases Nat.lt_or_eq_of_le h.le_infinity with hlt | heq
  · right
    refine ⟨x.bits.toNat / leading, x.bits.toNat % leading, ?_⟩
    constructor
    · exact (Nat.div_add_mod' _ _).symm
    · exact Nat.div_pos hle (by decide)
    · exact Nat.div_lt_of_lt_mul (Nat.mul_comm 2047 _ ▸ hlt)
    · exact Nat.mod_lt _ (by decide)
  · left
    exact eq_of_toNat_bits_eq (heq.trans toNat_bits_infinity.symm)

theorem zero_lt (h : Normal x) : lt 0 x = true := by
  have hle := h.leading_le
  have hinfinity := h.le_infinity
  have hfield : 1 ≤ x.exponentField := by
    unfold exponentField leading at *
    omega
  have hnegative : x.negative = false := by
    unfold negative leading at *
    rw [decide_eq_false_iff_not]
    omega
  have hnumber : x.isNaN = false := by
    have hlast : x.exponentField = 2047 → x.fraction = 0 := by
      unfold exponentField fraction leading at *
      omega
    by_cases hinfinite : x.exponentField = 2047 <;> simp [isNaN, hlast, hinfinite]
  have hmagnitude : 0 < x.magnitude := by
    unfold magnitude significand
    rw [if_neg (Nat.pos_iff_ne_zero.mp hfield)]
    exact Nat.mul_pos (Nat.add_pos_left (by decide) _) (Nat.two_pow_pos _)
  have hzero : (0 : Binary64).isNaN = false ∧ (0 : Binary64).scaled = 0 := by decide
  rw [lt_iff, hzero.2, scaled, hnegative, if_neg Bool.false_ne_true]
  exact ⟨hzero.1, hnumber, Int.natCast_pos.mpr hmagnitude⟩

end Normal

/-! ## Packing -/

/-- The word of an unpacked number. -/
def packed (f : UnpackedFloat) : Binary64 := ⟨⟨f.pack .binary64⟩⟩

/-- What a word is unpacked into. -/
def unpacked (x : Binary64) : UnpackedFloat := x.toFloat.toModel.unpack

theorem add_eq (x y : Binary64) : x + y = packed (.add .binary64 x.unpacked y.unpacked) := rfl

theorem div_eq (x y : Binary64) : x / y = packed (.div .binary64 x.unpacked y.unpacked) := rfl

theorem unpacked_zero : unpacked 0 = .zero .positive := rfl

theorem unpacked_infinity : unpacked infinity = .infinity .positive := rfl

theorem toNat_append {v w : Nat} (high : BitVec v) (low : BitVec w) :
    (high ++ low).toNat = high.toNat * 2 ^ w + low.toNat := by
  rw [BitVec.toNat_append, ← Nat.shiftLeft_add_eq_or_of_lt low.isLt, Nat.shiftLeft_eq]

/-- The word with a given exponent field and fraction, without a sign. -/
theorem toNat_packComponents (e : BitVec 11) (f : BitVec 52) :
    BitVec.toNat (packComponents .binary64 .positive e f) = e.toNat * leading + f.toNat := by
  have hsign : (0#1 ++ e).toNat = e.toNat := by
    rw [toNat_append]
    exact (congrArg (· + e.toNat) (Nat.zero_mul _)).trans (Nat.zero_add _)
  have happend := toNat_append (0#1 ++ e) f
  rw [hsign] at happend
  exact happend

/-- An unpacked number above zero whose significand has all its digits, and whose last
digit is none below the last one of the least word. -/
structure Full (m : Nat) (e : Int) : Prop where
  leading_le : leading ≤ m
  lt_twice : m < 2 * leading
  exponent_le : -1074 ≤ e

namespace Full

variable {m : Nat} {e : Int}

theorem pos (h : Full m e) : 0 < m := pos_of_leading_le h.leading_le

theorem log2_eq (h : Full m e) : m.log2 = 52 :=
  (Nat.log2_eq_iff (Nat.pos_iff_ne_zero.mp h.pos)).mpr ⟨h.leading_le, h.lt_twice⟩

theorem hasFields_packed (h : Full m e) (hm : 0 < m) (he : e ≤ 971) :
    HasFields (packed (.finite .positive m e hm)) (e + 1075).toNat (m - leading) := by
  have hleast := h.leading_le
  have hmost := h.lt_twice
  have hexponent := h.exponent_le
  have hbits : (packed (.finite .positive m e hm)).bits.toBitVec =
      packComponents .binary64 .positive (BitVec.ofNat 11 (e + 1075).toNat)
        (BitVec.ofNat 52 m) := by
    have hlow : ¬ 2 ^ 11 ≤ (e + 1023 + 52).toNat + 1 := by omega
    have hfull : m.log2 + 1 = 53 := congrArg (· + 1) h.log2_eq
    have hbiased : e + 1023 + 52 = e + 1075 := by omega
    rw [← hbiased]
    exact (if_neg hlow).trans (if_pos hfull)
  constructor
  · rw [← UInt64.toNat_toBitVec, hbits, toNat_packComponents, BitVec.toNat_ofNat,
      BitVec.toNat_ofNat]
    unfold leading at *
    omega
  · omega
  · omega
  · omega

/-- A significand with all its digits becomes a normal word. -/
theorem normal_packed (h : Full m e) (hm : 0 < m) : Normal (packed (.finite .positive m e hm)) := by
  by_cases he : e ≤ 971
  · exact (h.hasFields_packed hm he).normal
  · have hhigh : 2 ^ 11 ≤ (e + 1023 + 52).toNat + 1 := by omega
    have hinfinity : (packed (.finite .positive m e hm)).bits.toBitVec = infinity.bits.toBitVec :=
      if_pos hhigh
    have hpacked : packed (.finite .positive m e hm) = infinity :=
      congrArg (fun bits => Binary64.mk ⟨bits⟩) hinfinity
    rw [hpacked]
    exact normal_infinity

end Full

namespace HasFields

theorem full (h : HasFields x field fraction) : Full (leading + fraction) (field - 1075) := by
  have hpos := h.field_pos
  have hfraction := h.fraction_lt
  constructor
  · exact Nat.le_add_right _ _
  · omega
  · omega

/-- The fields determine the word. -/
theorem eq (h : HasFields x field fraction) (h' : HasFields y field fraction) : x = y :=
  eq_of_toNat_bits_eq (h.word.trans h'.word.symm)

theorem packed_eq (h : HasFields x field fraction) (hm : 0 < leading + fraction) :
    packed (.finite .positive (leading + fraction) (field - 1075) hm) = x := by
  have hpos := h.field_pos
  have hlt := h.field_lt
  have hpacked := h.full.hasFields_packed hm (by omega)
  rw [Nat.add_sub_cancel_left, Int.sub_add_cancel, Int.toNat_natCast] at hpacked
  exact hpacked.eq h

/-- A word is unpacked into its significand, and the place of its last digit. -/
theorem unpacked_eq (h : HasFields x field fraction) (hm : 0 < leading + fraction) :
    x.unpacked = .finite .positive (leading + fraction) (field - 1075) hm := by
  have hpos := h.field_pos
  have hlt := h.field_lt
  have hfraction := h.fraction_lt
  have hword : x.bits.toBitVec =
      packComponents .binary64 .positive (BitVec.ofNat 11 field) (BitVec.ofNat 52 fraction) := by
    apply BitVec.eq_of_toNat_eq
    rw [toNat_packComponents, UInt64.toNat_toBitVec, h.word, BitVec.toNat_ofNat,
      BitVec.toNat_ofNat]
    unfold leading at *
    omega
  have hfield : (BitVec.ofNat 11 field).toNat = field := by
    rw [BitVec.toNat_ofNat]
    omega
  have hsignificand : (1#1 ++ BitVec.ofNat 52 fraction).toNat = leading + fraction := by
    rw [toNat_append, BitVec.toNat_ofNat, BitVec.toNat_ofNat]
    unfold leading at *
    omega
  -- neither the field of the words without a leading digit nor that of infinity
  have hfirst : BitVec.ofNat 11 field ≠ 0#11 := by
    intro hzero
    rw [hzero] at hfield
    exact Nat.pos_iff_ne_zero.mp hpos hfield.symm
  have hlast : BitVec.ofNat 11 field ≠ -1#11 := by
    intro hmost
    rw [hmost] at hfield
    exact Nat.ne_of_lt hlt hfield.symm
  have hunpack : UnpackedFloat.unpack .binary64 x.bits.toBitVec =
      .finite .positive (leading + fraction) (field - 1075) hm := by
    rw [hword, UnpackedFloat.unpack]
    simp only [UnpackedFloat.unpackMantissa_packComponents,
      UnpackedFloat.unpackExponent_packComponents, UnpackedFloat.unpackSign_packComponents]
    rw [if_neg hlast, if_neg hfirst]
    congr 1
    rw [hfield]
    rfl
  have hagain : x.unpacked =
      UnpackedFloat.unpack .binary64
        (UnpackedFloat.pack .binary64 (UnpackedFloat.unpack .binary64 x.bits.toBitVec)) := rfl
  have hpack : UnpackedFloat.pack .binary64
      (.finite .positive (leading + fraction) (field - 1075) hm) = x.bits.toBitVec :=
    congrArg (fun word => word.bits.toBitVec) (h.packed_eq hm)
  rw [hagain, hunpack, hpack, hunpack]

end HasFields

/-! ## Rounding -/

theorem mantissa_shiftRight (m : ExtendedMantissa) (places : Nat) :
    (m >>> places).mantissa = m.mantissa / 2 ^ places := by
  induction places with
  | zero => exact (Nat.div_one _).symm
  | succ places ih =>
    have hstep : (m >>> (places + 1)).mantissa = (m >>> places).mantissa / 2 := rfl
    rw [hstep, ih, Nat.div_div_eq_div_mul, Nat.pow_succ]

theorem mantissa_le_roundedMantissa (m : ExtendedMantissa) : m.mantissa ≤ m.roundedMantissa := by
  obtain ⟨mantissa, round, sticky⟩ := m
  cases round <;> cases sticky
  · exact Nat.le_refl _
  · exact Nat.le_refl _
  · exact Nat.le_add_right _ _
  · exact Nat.le_succ _

section Rounding

variable {m : Nat} {e : Int}

theorem log2_ge (hm : leading ≤ m) : 52 ≤ m.log2 :=
  (Nat.le_log2 (Nat.pos_iff_ne_zero.mp (pos_of_leading_le hm))).mpr hm

/-- A significand that has more digits than it should is cut to as many as it should. -/
theorem full_shift (hm : leading ≤ m) (he : -1074 ≤ e) (accuracy : Accuracy) :
    Full (shiftToTargetExponent .binary64 m e accuracy).1.mantissa
      (shiftToTargetExponent .binary64 m e accuracy).2 := by
  have hlog := log2_ge hm
  have hne : m ≠ 0 := Nat.pos_iff_ne_zero.mp (pos_of_leading_le hm)
  have htarget : (Format.binary64.targetExponent (totalExponent m e) - e).toNat = m.log2 - 52 := by
    show (max ((m.log2 : Int) + 1 + e - 53) (-1074) - e).toNat = m.log2 - 52
    omega
  have hmantissa : (ExtendedMantissa.ofMantissaAndAccuracy m accuracy).mantissa = m := by
    rcases accuracy with _ | order
    · rfl
    · cases order <;> rfl
  have hshift : (shiftToTargetExponent .binary64 m e accuracy).1.mantissa =
      m / 2 ^ (m.log2 - 52) := by
    rw [← htarget]
    exact (mantissa_shiftRight _ _).trans (by rw [hmantissa])
  have hexponent : (shiftToTargetExponent .binary64 m e accuracy).2 =
      e + ((m.log2 - 52 : Nat) : Int) := by
    rw [← htarget]
    rfl
  have hpow : leading * 2 ^ (m.log2 - 52) = 2 ^ m.log2 := by
    have hplaces := Nat.pow_add 2 52 (m.log2 - 52)
    rw [Nat.add_sub_cancel' hlog] at hplaces
    exact hplaces.symm
  have hpos := Nat.two_pow_pos (m.log2 - 52)
  rw [hshift, hexponent]
  constructor
  · rw [Nat.le_div_iff_mul_le hpos, hpow]
    exact Nat.log2_self_le hne
  · rw [Nat.div_lt_iff_lt_mul hpos, Nat.mul_assoc, hpow, ← Nat.pow_succ']
    exact Nat.lt_log2_self
  · omega

/-- Rounding leaves a significand with all its digits. -/
theorem normal_packed_round (hm : leading ≤ m) (he : -1074 ≤ e) (accuracy : Accuracy) :
    Normal (packed (roundWithAccuracy .binary64 .positive m e accuracy)) := by
  have hcut := full_shift hm he accuracy
  -- rounding up may carry into one more digit, which is cut off again
  have hrounded := Nat.le_trans hcut.leading_le (mantissa_le_roundedMantissa _)
  have hagain := full_shift hrounded hcut.exponent_le .exact
  have hne := Nat.pos_iff_ne_zero.mp hagain.pos
  unfold roundWithAccuracy
  dsimp only
  rw [dif_neg hne]
  exact hagain.normal_packed _

/-- A significand that has all digits is not lengthened before it is rounded. -/
theorem normal_packed_normalize (hm : leading ≤ m) (he : -1074 ≤ e) :
    Normal (packed (.normalize .binary64 (m : Int) e .positive)) := by
  have hlog := log2_ge hm
  have hpos : compare (m : Int) 0 = .gt :=
    Int.compare_eq_gt.mpr (Int.natCast_pos.mpr (pos_of_leading_le hm))
  have hkept : (e - Format.binary64.targetExponent (totalExponent m e)).toNat = 0 := by
    show (e - max ((m.log2 : Int) + 1 + e - 53) (-1074)).toNat = 0
    omega
  have hround : UnpackedFloat.normalize .binary64 (m : Int) e .positive =
      roundWithAccuracy .binary64 .positive m e .exact := by
    rw [UnpackedFloat.normalize, hpos]
    simp only [UnpackedFloat.round, UnpackedFloat.decreaseExponent, Int.toNat_natCast, hkept,
      Nat.shiftLeft_zero, Int.natCast_zero, Int.sub_zero]
  rw [hround]
  exact normal_packed_round hm he .exact

end Rounding

/-! ## Sums -/

theorem Full.normal_packed_add {m m' : Nat} {e e' : Int} (h : Full m e) (h' : Full m' e')
    (hm : 0 < m) (hm' : 0 < m') :
    Normal (packed (.add .binary64 (.finite .positive m e hm) (.finite .positive m' e' hm'))) := by
  have hsum : leading ≤ m <<< (e - min e e').toNat + m' <<< (e' - min e e').toNat := by
    have hlonger : m ≤ m * 2 ^ (e - min e e').toNat :=
      Nat.le_mul_of_pos_right _ (Nat.two_pow_pos _)
    rw [Nat.shiftLeft_eq]
    exact Nat.le_add_right_of_le (Nat.le_trans h.leading_le hlonger)
  have hleast : -1074 ≤ min e e' := Int.le_min.mpr ⟨h.exponent_le, h'.exponent_le⟩
  have hnormal := normal_packed_normalize hsum hleast
  rw [Int.natCast_add] at hnormal
  exact hnormal

namespace Normal

theorem add (hx : Normal x) (hy : Normal y) : Normal (x + y) := by
  rw [add_eq]
  rcases hx.eq_infinity_or_hasFields with rfl | ⟨field, fraction, hfields⟩
  · rw [unpacked_infinity]
    rcases hy.eq_infinity_or_hasFields with rfl | ⟨field, fraction, hfields⟩
    · rw [unpacked_infinity]
      exact normal_infinity
    · rw [hfields.unpacked_eq hfields.full.pos]
      exact normal_infinity
  · rw [hfields.unpacked_eq hfields.full.pos]
    rcases hy.eq_infinity_or_hasFields with rfl | ⟨field', fraction', hfields'⟩
    · rw [unpacked_infinity]
      exact normal_infinity
    · rw [hfields'.unpacked_eq hfields'.full.pos]
      exact hfields.full.normal_packed_add hfields'.full _ _

/-- Nothing is added. -/
theorem add_zero (hx : Normal x) : x + 0 = x := by
  rw [add_eq, unpacked_zero]
  rcases hx.eq_infinity_or_hasFields with rfl | ⟨field, fraction, hfields⟩
  · rfl
  · rw [hfields.unpacked_eq hfields.full.pos]
    exact hfields.packed_eq _

theorem zero_add (hx : Normal x) : 0 + x = x := by
  rw [add_eq, unpacked_zero]
  rcases hx.eq_infinity_or_hasFields with rfl | ⟨field, fraction, hfields⟩
  · rfl
  · rw [hfields.unpacked_eq hfields.full.pos]
    exact hfields.packed_eq _

end Normal

/-! ## Quotients -/

/-- The quotient of two significands with all their digits has at least as many, if the
place of its last digit exists. -/
theorem Full.normal_packed_div {m m' : Nat} {e e' : Int} (h : Full m e) (h' : Full m' e')
    (hm : 0 < m) (hm' : 0 < m') (he : -1021 ≤ e - e') :
    Normal (packed (.div .binary64 (.finite .positive m e hm) (.finite .positive m' e' hm'))) := by
  have htarget : min (e - e') (Format.binary64.targetExponent
      (totalExponent m e - totalExponent m' e')) = e - e' - 53 := by
    show min (e - e') (max ((m.log2 : Int) + 1 + e - ((m'.log2 : Int) + 1 + e') - 53) (-1074)) =
      e - e' - 53
    rw [h.log2_eq, h'.log2_eq]
    omega
  have hshift : (e - e' - (e - e' - 53)).toNat = 53 := by omega
  have hquotient : leading ≤ m <<< 53 / m' := by
    have hleast := h.leading_le
    have hmost := h'.lt_twice
    rw [Nat.le_div_iff_mul_le hm', Nat.shiftLeft_eq]
    unfold leading at *
    omega
  have hdiv : UnpackedFloat.div .binary64 (.finite .positive m e hm) (.finite .positive m' e' hm') =
      roundWithAccuracy .binary64 .positive (m <<< 53 / m') (e - e' - 53)
        (UnpackedFloat.accuracyOfFraction (m <<< 53 % m') m') := by
    simp only [UnpackedFloat.div, UnpackedFloat.divCore, htarget, hshift]
    rfl
  rw [hdiv]
  exact normal_packed_round hquotient (by omega) _

theorem normal_ofNat_div_ofNat {m n : Nat} (hm : 0 < m) (hm' : m < 2 ^ 53) (hn : 0 < n)
    (hn' : n < 2 ^ 53) : Normal (ofNat m / ofNat n) := by
  have hfields := hasFields_ofNat hm hm'
  have hfields' := hasFields_ofNat hn hn'
  have hlog := (significand_bounds hn hn').1
  rw [div_eq, hfields.unpacked_eq hfields.full.pos, hfields'.unpacked_eq hfields'.full.pos]
  exact hfields.full.normal_packed_div hfields'.full _ _ (by omega)

theorem zero_div_ofNat {n : Nat} (hn : 0 < n) (hn' : n < 2 ^ 53) : 0 / ofNat n = 0 := by
  have hfields := hasFields_ofNat hn hn'
  rw [div_eq, unpacked_zero, hfields.unpacked_eq hfields.full.pos]
  rfl

end FrameServer.Binary64
