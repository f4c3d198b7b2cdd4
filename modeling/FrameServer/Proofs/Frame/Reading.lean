import FrameServer.Proofs.Frame.Stream

/-!
# FrameServer.Proofs.Frame.Reading — what a header keeps of its bytes

A header that was read from a byte string and is written again gives the same bytes, but
for the recording flag: a flag that is set in any way is written as 1. So two byte
strings give the same header exactly if they agree around the flag and on whether it is
set, and nothing behind the 120 bytes of a header matters.

1. **Words** and the bytes that they were read from.
2. **Fields** of a header that was read.
3. **Settled bytes**: with the flag written as a header writes it.
4. **Headers** and the bytes that they were read from.
-/

namespace FrameServer

/-! ## Words -/

namespace Word

theorem digits_value (bytes : Bytes) : digits bytes.length (value bytes) = bytes := by
  induction bytes with
  | nil => rfl
  | cons b rest ih =>
    have hb := b.toNat_lt
    have hlowest : UInt8.ofNat (b.toNat + 256 * value rest) = b := by
      apply UInt8.toNat_inj.mp
      rw [UInt8.toNat_ofNat']
      omega
    have hrest : (b.toNat + 256 * value rest) / 256 = value rest := by omega
    rw [value, List.length_cons, digits, hlowest, hrest, ih]

theorem value_lt (bytes : Bytes) : value bytes < 256 ^ bytes.length := by
  induction bytes with
  | nil => exact Nat.one_pos
  | cons b rest ih =>
    have hb := b.toNat_lt
    rw [value, List.length_cons, Nat.pow_succ]
    omega

theorem value_eq_zero_iff {bytes : Bytes} : value bytes = 0 ↔ ∀ b ∈ bytes, b = 0 := by
  induction bytes with
  | nil => simp [value]
  | cons b rest ih =>
    have hb : b.toNat = 0 ↔ b = 0 := UInt8.toNat_inj (b := 0)
    rw [value, List.forall_mem_cons, ← ih, ← hb]
    omega

section Bytes

variable {bytes : Bytes}

theorem toNat_ofBytes (bytes : Bytes) : (ofBytes bytes).toNat = value (bytes.take 8) := by
  have hfits : value (bytes.take 8) < 2 ^ 64 :=
    Nat.lt_of_lt_of_le (value_lt _) (Nat.pow_le_pow_right (by decide) (List.length_take_le 8 bytes))
  exact UInt64.toNat_ofNat_of_lt' hfits

/-- A word that was read is written as the bytes that it was read from. -/
theorem toBytes_ofBytes (hlength : 8 ≤ bytes.length) :
    toBytes (ofBytes bytes) = bytes.take 8 := by
  have htaken : (bytes.take 8).length = 8 := List.length_take_of_le hlength
  have hdigits := digits_value (bytes.take 8)
  rw [htaken] at hdigits
  rw [toBytes, toNat_ofBytes, hdigits]

theorem flatMap_toBytes_readMany {count : Nat} (hlength : count * 8 ≤ bytes.length) :
    (readMany count bytes).flatMap toBytes = bytes.take (count * 8) := by
  induction count generalizing bytes with
  | zero => simp [readMany]
  | succ count ih =>
    have hfirst : 8 ≤ bytes.length := by omega
    have hbehind : count * 8 ≤ (bytes.drop 8).length := by
      rw [List.length_drop]
      omega
    have hsplit : (count + 1) * 8 = 8 + count * 8 := by omega
    rw [readMany, List.flatMap_cons, toBytes_ofBytes hfirst, ih hbehind, hsplit, List.take_add]

/-- Words are read from the front, and what is behind them does not matter. -/
theorem readMany_append {count : Nat} (hlength : count * 8 ≤ bytes.length) (rest : Bytes) :
    readMany count (bytes ++ rest) = readMany count bytes := by
  induction count generalizing bytes with
  | zero => rfl
  | succ count ih =>
    have hfirst : 8 ≤ bytes.length := by omega
    have hbehind : count * 8 ≤ (bytes.drop 8).length := by
      rw [List.length_drop]
      omega
    rw [readMany, readMany, ofBytes, ofBytes, List.take_append_of_le_length hfirst,
      List.drop_append_of_le_length hfirst, ih hbehind]

end Bytes

end Word

namespace Header

/-! ## Fields -/

/-- The fields of a header that was read are the words in front of the flag, the flag as 0
or 1, and the words behind it. -/
theorem exists_ofWords?_readMany (bytes : Bytes) :
    ∃ h, ofWords? (Word.readMany 15 bytes) = some h ∧
      h.words = Word.readMany 6 bytes ++
        (if Word.ofBytes (bytes.drop 48) = 0 then 0 else 1) ::
          Word.readMany 8 (bytes.drop 56) := by
  refine ⟨_, rfl, ?_⟩
  simp [words, Word.readMany, List.drop_drop]

/-! ## Settled bytes -/

/-- The bytes of the recording flag. -/
def flagBytes (bytes : Bytes) : Bytes := (bytes.drop 48).take 8

/-- The flag is not set. -/
def FlagClear (bytes : Bytes) : Prop := ∀ b ∈ flagBytes bytes, b = 0

instance (bytes : Bytes) : Decidable (FlagClear bytes) := inferInstanceAs (Decidable (∀ _ ∈ _, _))

/-- The first 120 bytes with the flag as 0 or as 1, the lowest byte first. -/
def settled (bytes : Bytes) : Bytes :=
  bytes.take 48 ++ (if FlagClear bytes then 0 else 1) :: List.replicate 7 0 ++
    (bytes.take 120).drop 56

/-- The strings agree on what a header keeps of them. -/
structure Agree (a b : Bytes) : Prop where
  front : a.take 48 = b.take 48
  flag : FlagClear a ↔ FlagClear b
  back : (a.take 120).drop 56 = (b.take 120).drop 56

theorem toBytes_injective : Function.Injective toBytes := by
  intro h h' hsame
  have hread := h.ofBytes?_toBytes_append []
  rw [hsame, ofBytes?_toBytes_append, Option.some_inj] at hread
  exact hread.symm

theorem flagClear_iff {bytes : Bytes} :
    FlagClear bytes ↔ Word.ofBytes (bytes.drop 48) = 0 := by
  rw [FlagClear, flagBytes, ← Word.value_eq_zero_iff, ← Word.toNat_ofBytes]
  exact UInt64.toNat_inj (b := 0)

section Long

variable {a b : Bytes}

theorem settled_eq_settled_iff (ha : 120 ≤ a.length) (hb : 120 ≤ b.length) :
    settled a = settled b ↔ Agree a b := by
  have hfronts : (a.take 48).length = (b.take 48).length := by
    rw [List.length_take, List.length_take]
    omega
  constructor
  · intro hsettled
    rw [settled, settled, List.append_assoc, List.append_assoc] at hsettled
    obtain ⟨hfront, hrest⟩ := List.append_inj hsettled hfronts
    obtain ⟨hflag, hback⟩ := List.cons.inj hrest
    refine ⟨hfront, ?_, List.append_cancel_left hback⟩
    by_cases hclear : FlagClear a <;> simp_all
  · rintro ⟨hfront, hflag, hback⟩
    rw [settled, settled, hfront, hback]
    simp only [hflag]

/-! ## Headers -/

/-- A header that was read is written as the bytes in front, with the flag settled. -/
theorem exists_ofBytes? (ha : 120 ≤ a.length) :
    ∃ h, ofBytes? a = some h ∧ h.toBytes = settled a := by
  obtain ⟨h, hread, hwords⟩ := exists_ofWords?_readMany a
  refine ⟨h, ?_, ?_⟩
  · have hlong : ¬ a.length < byteLength := Nat.not_lt.mpr ha
    rw [ofBytes?, if_neg hlong, hread]
  · have hflag : Word.toBytes (if Word.ofBytes (a.drop 48) = 0 then 0 else 1) =
        (if FlagClear a then 0 else 1) :: List.replicate 7 0 := by
      simp only [flagClear_iff]
      split <;> decide
    have hfront : (Word.readMany 6 a).flatMap Word.toBytes = a.take 48 :=
      Word.flatMap_toBytes_readMany (by omega)
    have hback : (Word.readMany 8 (a.drop 56)).flatMap Word.toBytes = (a.take 120).drop 56 := by
      rw [List.drop_take]
      apply Word.flatMap_toBytes_readMany
      rw [List.length_drop]
      omega
    rw [toBytes, hwords, List.flatMap_append, List.flatMap_cons, hfront, hflag, hback, settled,
      List.append_assoc]

theorem ofBytes?_append (ha : 120 ≤ a.length) (rest : Bytes) :
    ofBytes? (a ++ rest) = ofBytes? a := by
  have hlong : ¬ a.length < byteLength := Nat.not_lt.mpr ha
  have hlonger : ¬ (a ++ rest).length < byteLength := by
    rw [List.length_append]
    omega
  rw [ofBytes?, ofBytes?, if_neg hlong, if_neg hlonger, Word.readMany_append ha]

theorem ofBytes?_eq_ofBytes?_iff (ha : 120 ≤ a.length) (hb : 120 ≤ b.length) :
    ofBytes? a = ofBytes? b ↔ Agree a b := by
  obtain ⟨h, hread, hwritten⟩ := exists_ofBytes? ha
  obtain ⟨h', hread', hwritten'⟩ := exists_ofBytes? hb
  rw [← settled_eq_settled_iff ha hb, hread, hread', ← hwritten, ← hwritten', Option.some_inj]
  exact toBytes_injective.eq_iff.symm

end Long

/-- Fewer than 120 bytes are no header. Of 120 bytes or more, whatever they are, a header
is read, and it is written as the first 120 of them with the flag settled; the bytes behind
play no part. Two such strings give the same header, bit by bit, exactly if they agree
around the flag and on whether it is set. -/
theorem ofBytes?_keeps_all_but_flag (bytes : Bytes) :
    (ofBytes? bytes = none ↔ bytes.length < 120) ∧
      (120 ≤ bytes.length →
        (∃ h, ofBytes? bytes = some h ∧ h.toBytes = settled bytes) ∧
          (∀ rest, ofBytes? (bytes.take 120 ++ rest) = ofBytes? bytes) ∧
          ∀ other : Bytes, 120 ≤ other.length →
            (ofBytes? bytes = ofBytes? other ↔ Agree bytes other)) := by
  constructor
  · constructor
    · intro hnone
      apply Nat.lt_of_not_le
      intro hlong
      obtain ⟨h, hread, -⟩ := exists_ofBytes? hlong
      rw [hnone] at hread
      cases hread
    · intro hshort
      exact if_pos hshort
  · intro hlong
    refine ⟨exists_ofBytes? hlong, ?_, ?_⟩
    · intro rest
      have htaken : 120 ≤ (bytes.take 120).length :=
        Nat.le_of_eq (List.length_take_of_le hlong).symm
      rw [ofBytes?_append htaken, ← ofBytes?_append htaken (bytes.drop 120),
        List.take_append_drop]
    · intro other hother
      exact ofBytes?_eq_ofBytes?_iff hlong hother

/-- A flag of which only the fourth byte is set is written as 1; the gain is no number and
keeps its bits, and so does the negative zero behind it. Another string that agrees gives
the same header, and one with a cleared flag does not. -/
theorem read_of_flag_in_fourth_byte :
    let front : Bytes := (List.range 48).map UInt8.ofNat
    let gains : Bytes := [1, 0, 0xad, 0xde, 0, 0, 0xf8, 0x7f, 0, 0, 0, 0, 0, 0, 0, 0x80]
    let back : Bytes := gains ++ List.replicate 48 7
    let bytes := front ++ [0, 0, 0, 9, 0, 0, 0, 0] ++ back
    let other := front ++ [0, 4, 0, 0, 0, 0, 0, 0xff] ++ back ++ [1, 2, 3]
    let cleared := front ++ List.replicate 8 0 ++ back
    120 ≤ bytes.length ∧ 120 ≤ other.length ∧ 120 ≤ cleared.length ∧
      (∃ h, ofBytes? bytes = some h ∧
        h.toBytes = front ++ [1, 0, 0, 0, 0, 0, 0, 0] ++ back) ∧
      ofBytes? bytes = ofBytes? other ∧ ofBytes? bytes ≠ ofBytes? cleared := by
  intro front gains back bytes other cleared
  have hbytes : 120 ≤ bytes.length := by decide +kernel
  have hother : 120 ≤ other.length := by decide +kernel
  have hcleared : 120 ≤ cleared.length := by decide +kernel
  have hsettled : settled bytes = front ++ [1, 0, 0, 0, 0, 0, 0, 0] ++ back := by decide +kernel
  obtain ⟨-, hlong⟩ := ofBytes?_keeps_all_but_flag bytes
  obtain ⟨hread, -, hsame⟩ := hlong hbytes
  rw [hsettled] at hread
  refine ⟨hbytes, hother, hcleared, hread, ?_, ?_⟩
  · rw [hsame other hother]
    constructor <;> decide +kernel
  · rw [Ne, hsame cleared hcleared]
    rintro ⟨-, hflag, -⟩
    revert hflag
    decide +kernel

end Header

end FrameServer
