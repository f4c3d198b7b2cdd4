import Mathlib.Data.List.Induction
import FrameServer.Decimal.Literal
import FrameServer.Number.Width

/-!
# FrameServer.Proofs.Decimal.Numeral — the texts that denote integers

A numeral is a digit, or a numeral with a digit behind it. Reading an integer gives
what its text denotes, and texts that denote nothing are refused.

1. **Numerals** without a sign.
2. **Signed numerals**
3. **Words**: the integers that fit 32 bits.
-/

namespace FrameServer.Decimal

/-! ## Numerals -/

/-- The texts of one or more decimal digits, each with the number that it denotes. -/
inductive Numeral : List Char → Nat → Prop where
  | digit {d : Nat} (hd : d < 10) : Numeral [d.digitChar] d
  | snoc {text : List Char} {n d : Nat} (h : Numeral text n) (hd : d < 10) :
      Numeral (text ++ [d.digitChar]) (10 * n + d)

theorem digitValue_digitChar {d : Nat} (hd : d < 10) : digitValue d.digitChar = d := by
  rw [digitValue, Nat.toNat_digitChar_of_lt_ten hd]
  exact Nat.add_sub_cancel_left 48 d

theorem exists_digitChar {c : Char} (hc : c.isDigit = true) : ∃ d < 10, d.digitChar = c := by
  have hrange : 48 ≤ c.toNat ∧ c.toNat ≤ 57 := Char.isDigit_iff_toNat.mp hc
  refine ⟨c.toNat - 48, by omega, ?_⟩
  rw [← Char.toNat_inj, Nat.toNat_digitChar_of_lt_ten (by omega)]
  omega

theorem valueOf_snoc (digits : List Char) (c : Char) :
    valueOf (digits ++ [c]) = 10 * valueOf digits + digitValue c := by
  simp [valueOf]

namespace Numeral

variable {text : List Char} {n : Nat}

theorem ne_nil (h : Numeral text n) : text ≠ [] := by
  cases h <;> simp

theorem isDigit_of_mem (h : Numeral text n) : ∀ c ∈ text, c.isDigit = true := by
  induction h with
  | digit hd => simp [Nat.isDigit_digitChar, hd]
  | snoc h hd ih =>
    intro c hc
    rcases List.mem_append.mp hc with hfront | hlast
    · exact ih c hfront
    · rw [List.mem_singleton.mp hlast, Nat.isDigit_digitChar]
      exact decide_eq_true hd

theorem valueOf_eq (h : Numeral text n) : valueOf text = n := by
  induction h with
  | digit hd => simp [valueOf, digitValue_digitChar hd]
  | snoc h hd ih => rw [valueOf_snoc, ih, digitValue_digitChar hd]

end Numeral

/-- Digits denote their value. -/
theorem numeral_valueOf {text : List Char} (hne : text ≠ [])
    (hdigits : ∀ c ∈ text, c.isDigit = true) : Numeral text (valueOf text) := by
  -- the last digit of the text is the last one of the numeral
  induction text using List.reverseRecOn with
  | nil => exact absurd rfl hne
  | append_singleton front c ih =>
    obtain ⟨d, hd, rfl⟩ := exists_digitChar (hdigits c (by simp))
    rw [valueOf_snoc, digitValue_digitChar hd]
    by_cases hfront : front = []
    · subst hfront
      simpa [valueOf] using Numeral.digit hd
    · have hrest : ∀ c ∈ front, c.isDigit = true :=
        fun c hc => hdigits c (List.mem_append_left _ hc)
      exact .snoc (ih hfront hrest) hd

theorem natural?_eq_some_iff {text : List Char} {n : Nat} :
    natural? text = some n ↔ Numeral text n := by
  constructor
  · intro h
    rw [natural?] at h
    split at h
    · next hdigits =>
      cases h
      exact numeral_valueOf hdigits.1 (List.all_eq_true.mp hdigits.2)
    · cases h
  · intro h
    rw [natural?, if_pos ⟨h.ne_nil, List.all_eq_true.mpr h.isDigit_of_mem⟩, h.valueOf_eq]

/-! ## Signed numerals -/

/-- The texts of integers: a numeral, perhaps with a sign in front. -/
inductive SignedNumeral : List Char → Int → Prop where
  | bare {text : List Char} {n : Nat} (h : Numeral text n) : SignedNumeral text n
  | plus {text : List Char} {n : Nat} (h : Numeral text n) : SignedNumeral ('+' :: text) n
  | minus {text : List Char} {n : Nat} (h : Numeral text n) : SignedNumeral ('-' :: text) (-n)

theorem signedNumeral_of_integer? {text : List Char} {z : Int} (h : integer? text = some z) :
    SignedNumeral text z := by
  unfold integer? at h
  split at h
  · next digits =>
    simp only [Option.pure_def, Option.bind_eq_bind, Option.map_bind, Option.bind_eq_some_iff] at h
    obtain ⟨n, hn, hz⟩ := h
    cases hz
    exact .minus (natural?_eq_some_iff.mp hn)
  · obtain ⟨n, hn, rfl⟩ := Option.map_eq_some_iff.mp h
    exact .plus (natural?_eq_some_iff.mp hn)
  · obtain ⟨n, hn, rfl⟩ := Option.map_eq_some_iff.mp h
    exact .bare (natural?_eq_some_iff.mp hn)

theorem SignedNumeral.integer?_eq {text : List Char} {z : Int} (h : SignedNumeral text z) :
    integer? text = some z := by
  cases h with
  | plus h => simp [integer?, natural?_eq_some_iff.mpr h]
  | minus h => simp [integer?, natural?_eq_some_iff.mpr h]
  | bare h =>
    -- a text of digits begins with no sign
    have hdigits := h.isDigit_of_mem
    unfold integer?
    split
    · exact absurd (hdigits '-' List.mem_cons_self) (by decide)
    · exact absurd (hdigits '+' List.mem_cons_self) (by decide)
    · rw [natural?_eq_some_iff.mpr h]
      rfl

theorem integer?_eq_some_iff {text : List Char} {z : Int} :
    integer? text = some z ↔ SignedNumeral text z := by
  constructor
  · exact signedNumeral_of_integer?
  · exact SignedNumeral.integer?_eq

end FrameServer.Decimal

namespace FrameServer

/-! ## Words -/

theorem toInt32?_toInt (w : Int32) : toInt32? w.toInt = some w := by
  rw [toInt32?, if_pos ⟨w.minValue_le_toInt, w.toInt_le⟩, Int32.ofInt_toInt]

/-- An integer is read as a word exactly if it is the value of that word. -/
theorem toInt32?_eq_some_iff {z : Int} {w : Int32} : toInt32? z = some w ↔ w.toInt = z := by
  constructor
  · intro h
    rw [toInt32?] at h
    split at h
    · next hrange =>
      cases h
      exact Int32.toInt_ofInt_of_le hrange.1 (Int.lt_add_one_of_le hrange.2)
    · cases h
  · rintro rfl
    exact toInt32?_toInt w

theorem exists_toInt_eq_iff {z : Int} :
    (∃ w : Int32, w.toInt = z) ↔ -0x80000000 ≤ z ∧ z < 0x80000000 := by
  constructor
  · rintro ⟨w, rfl⟩
    exact ⟨w.le_toInt, w.toInt_lt⟩
  · rintro ⟨hle, hlt⟩
    exact ⟨Int32.ofInt z, Int32.toInt_ofInt_of_le hle hlt⟩

end FrameServer
