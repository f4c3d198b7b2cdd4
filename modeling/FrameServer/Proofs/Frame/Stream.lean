import Mathlib.Algebra.Group.Nat.Defs
import FrameServer.Frame.Stream

/-!
# FrameServer.Proofs.Frame.Stream — frames are read back as they were written

What was written of a row of frames reads as those frames, in order and with every
byte, as long as each of them has as many bytes as its header says. A front of the
next frame that is not all there reads as no frame.

1. **Words**: eight bytes each.
2. **Headers**: fifteen words each.
3. **Frames**, whole ones and their fronts.
4. **Rows of frames**
-/

namespace FrameServer

/-! ## Words -/

namespace Word

theorem digits_length (count n : Nat) : (digits count n).length = count := by
  induction count generalizing n with
  | zero => rfl
  | succ count ih =>
    have hrest := ih (n / 256)
    rw [digits, List.length_cons, hrest]

theorem value_digits (count n : Nat) : value (digits count n) = n % 256 ^ count := by
  induction count generalizing n with
  | zero => rw [digits, value, Nat.pow_zero, Nat.mod_one]
  | succ count ih =>
    have hlowest : (UInt8.ofNat n).toNat = n % 256 := UInt8.toNat_ofNat'
    have hrest := ih (n / 256)
    rw [digits, value, hlowest, hrest, Nat.pow_succ, Nat.mul_comm (256 ^ count), Nat.mod_mul]

theorem toBytes_length (w : UInt64) : (toBytes w).length = 8 := digits_length 8 w.toNat

theorem ofBytes_toBytes_append (w : UInt64) (rest : Bytes) : ofBytes (toBytes w ++ rest) = w := by
  have hfront : (toBytes w ++ rest).take 8 = toBytes w := List.take_left' (toBytes_length w)
  have hsmall : w.toNat % 256 ^ 8 = w.toNat := Nat.mod_eq_of_lt w.toNat_lt
  rw [ofBytes, hfront, toBytes, value_digits, hsmall]
  exact UInt64.ofNat_toNat

theorem flatMap_toBytes_length (words : List UInt64) :
    (words.flatMap toBytes).length = words.length * 8 := by
  induction words with
  | nil => rfl
  | cons w words ih =>
    have hword := toBytes_length w
    rw [List.flatMap_cons, List.length_append, List.length_cons, hword, ih]
    omega

theorem readMany_flatMap_append (words : List UInt64) (rest : Bytes) :
    readMany words.length (words.flatMap toBytes ++ rest) = words := by
  induction words with
  | nil => rfl
  | cons w words ih =>
    have hbehind : (toBytes w ++ (words.flatMap toBytes ++ rest)).drop 8 =
        words.flatMap toBytes ++ rest := List.drop_left' (toBytes_length w)
    rw [List.flatMap_cons, List.append_assoc, List.length_cons, readMany,
      ofBytes_toBytes_append, hbehind, ih]

end Word

/-! ## Headers -/

namespace Header

theorem toBytes_length (h : Header) : h.toBytes.length = byteLength :=
  Word.flatMap_toBytes_length h.words

theorem ofWords?_words (h : Header) : ofWords? h.words = some h := by
  obtain ⟨width, height, imageSize, payloadSize, timestamp, frameId, recording, gain, gainMin,
    gainMax, exposure, exposureMin, exposureMax, rate, measuredRate⟩ := h
  cases recording <;> rfl

/-- A header is read back from the front of a byte string. -/
theorem ofBytes?_toBytes_append (h : Header) (rest : Bytes) :
    ofBytes? (h.toBytes ++ rest) = some h := by
  have hlength := h.toBytes_length
  have henough : ¬ (h.toBytes ++ rest).length < byteLength := by
    rw [List.length_append, hlength]
    omega
  have hwords : Word.readMany 15 (h.toBytes ++ rest) = h.words :=
    Word.readMany_flatMap_append h.words rest
  rw [ofBytes?, if_neg henough, hwords]
  exact h.ofWords?_words

end Header

/-! ## Frames -/

namespace Frame

/-- The header says how many bytes follow it. -/
def WellSized (f : Frame) : Prop := f.header.payloadSize.toNat = f.payload.length

instance (f : Frame) : Decidable f.WellSized := inferInstanceAs (Decidable (_ = _))

theorem toBytes_length (f : Frame) :
    f.toBytes.length = Header.byteLength + f.payload.length := by
  have hheader := f.header.toBytes_length
  rw [toBytes, List.length_append, hheader]

/-- A frame is read back from the front of a byte string. -/
theorem read?_toBytes_append {f : Frame} (hf : f.WellSized) (rest : Bytes) :
    read? (f.toBytes ++ rest) = some (f, rest) := by
  have hheader : Header.ofBytes? (f.toBytes ++ rest) = some f.header := by
    rw [toBytes, List.append_assoc]
    exact f.header.ofBytes?_toBytes_append _
  have hbehind : (f.toBytes ++ rest).drop Header.byteLength = f.payload ++ rest := by
    rw [toBytes, List.append_assoc]
    exact List.drop_left' f.header.toBytes_length
  have henough : ¬ (f.payload ++ rest).length < f.payload.length := by
    rw [List.length_append]
    omega
  have hsize : f.header.payloadSize.toNat = f.payload.length := hf
  simp only [read?, hheader, hbehind, hsize, henough, if_false, List.take_left, List.drop_left]

/-- A frame that is not all there is not read. -/
theorem read?_take {f : Frame} (hf : f.WellSized) {count : Nat}
    (hcount : count < f.toBytes.length) : read? (f.toBytes.take count) = none := by
  have hlength := f.header.toBytes_length
  rw [f.toBytes_length] at hcount
  by_cases hshort : count < Header.byteLength
  · -- not even the header is there
    have hnone : Header.ofBytes? (f.toBytes.take count) = none := by
      rw [Header.ofBytes?, List.length_take, if_pos]
      omega
    rw [read?, hnone]
  · -- the header is there, and asks for more bytes than there are
    have hfront : f.toBytes.take count =
        f.header.toBytes ++ f.payload.take (count - Header.byteLength) := by
      rw [toBytes, List.take_append, hlength, List.take_of_length_le]
      omega
    have hbehind : (f.header.toBytes ++ f.payload.take (count - Header.byteLength)).drop
        Header.byteLength = f.payload.take (count - Header.byteLength) :=
      List.drop_left' hlength
    have hfew : (f.payload.take (count - Header.byteLength)).length <
        f.header.payloadSize.toNat := by
      rw [show f.header.payloadSize.toNat = f.payload.length from hf, List.length_take]
      omega
    rw [hfront]
    simp only [read?, Header.ofBytes?_toBytes_append, hbehind, hfew, if_true]

/-! ## Rows of frames -/

theorem readAll_of_none {bytes : Bytes} (hnone : read? bytes = none) :
    readAll bytes = ([], bytes) := by
  unfold readAll
  split
  · rfl
  · next f rest hsome =>
    rw [hnone] at hsome
    cases hsome

theorem readAll_of_some {bytes rest : Bytes} {f : Frame} (hsome : read? bytes = some (f, rest)) :
    readAll bytes = (f :: (readAll rest).1, (readAll rest).2) := by
  rw [readAll]
  split
  · next hnone =>
    rw [hnone] at hsome
    cases hsome
  · next g left hread =>
    rw [hsome] at hread
    cases hread
    rfl

/-- A row of frames is read back, and what follows it is left if it is no frame. -/
theorem readAll_flatMap_append {frames : List Frame} (hframes : ∀ f ∈ frames, f.WellSized)
    {rest : Bytes} (hrest : read? rest = none) :
    readAll (frames.flatMap toBytes ++ rest) = (frames, rest) := by
  induction frames with
  | nil => exact readAll_of_none hrest
  | cons f frames ih =>
    have hfirst := hframes f List.mem_cons_self
    have hlater := ih fun g hg => hframes g (List.mem_cons_of_mem f hg)
    have hread := read?_toBytes_append hfirst (frames.flatMap toBytes ++ rest)
    rw [List.flatMap_cons, List.append_assoc, readAll_of_some hread, hlater]

end Frame

end FrameServer
