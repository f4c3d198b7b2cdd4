import FrameServer.Proofs.Ring.Contents

/-!
# FrameServer.Proofs.Frame.Lossless — streams of frames, whole and cut short

Frames that are written one after the other, each into a buffer of its own, make a
stream from which they are read back with nothing left over. A stream that ends early
gives the frames that are whole in it; what is left is the front of the next one.

1. **Streams** and where one of them is cut.
2. **Reading** them back.
-/

namespace FrameServer.Frame

/-! ## Streams -/

/-- A frame that is to be written, and what its buffer held before. -/
structure Writing where
  buffer : Bytes
  frame : Frame
deriving DecidableEq, Repr

/-- The wires of some frames one after the other. -/
def stream (writings : List Writing) : Bytes :=
  writings.flatMap fun w => w.frame.writeOver w.buffer

/-- What the buffers held before is of no account. -/
theorem stream_eq (writings : List Writing) :
    stream writings = (writings.map Writing.frame).flatMap toBytes := by
  rw [stream, List.flatMap_map]
  rfl

/-- A stream that is cut ends inside one of its frames, before its last byte. -/
theorem exists_cut (frames : List Frame) {count : Nat}
    (hcount : count < (frames.flatMap toBytes).length) :
    ∃ whole f later inside, frames = whole ++ f :: later ∧ inside < f.toBytes.length ∧
      (frames.flatMap toBytes).take count = whole.flatMap toBytes ++ f.toBytes.take inside := by
  induction frames generalizing count with
  | nil => exact absurd hcount (Nat.not_lt_zero count)
  | cons f frames ih =>
    rw [List.flatMap_cons, List.length_append] at hcount
    by_cases hfirst : count < f.toBytes.length
    · refine ⟨[], f, frames, count, rfl, hfirst, ?_⟩
      rw [List.flatMap_cons, List.take_append_of_le_length (Nat.le_of_lt hfirst)]
      rfl
    · -- the first frame is whole, and the cut is further on
      have hbehind : count - f.toBytes.length < (frames.flatMap toBytes).length := by omega
      rcases ih hbehind with ⟨whole, g, later, inside, hsplit, hinside, htake⟩
      refine ⟨f :: whole, g, later, inside, ?_, hinside, ?_⟩
      · rw [hsplit, List.cons_append]
      · have hall : f.toBytes.take count = f.toBytes := List.take_of_length_le (by omega)
        rw [List.flatMap_cons, List.flatMap_cons, List.take_append, htake, hall,
          List.append_assoc]

/-! ## Reading -/

/-- The frames of a stream are read back, with nothing left over. Of a stream that was
cut, the frames in front of the cut are read back, and what is left over is the front of
the next one, or nothing. The frames that a ring returns can be sent like this. -/
theorem readAll_stream {writings : List Writing} (hsized : ∀ w ∈ writings, w.frame.WellSized) :
    readAll (stream writings) = (writings.map Writing.frame, []) ∧
      (∀ front, front <+: stream writings → front ≠ stream writings →
        ∃ whole f later rest, writings.map Writing.frame = whole ++ f :: later ∧
          readAll front = (whole, rest) ∧ rest <+: f.toBytes ∧
          rest.length < f.toBytes.length) ∧
      ∀ (requested : Nat) (width height : UInt32) (ops : List Ring.Op) (f : Frame),
        some f ∈ ((Ring.empty requested width height).run ops).1 → f.WellSized := by
  have hframes : ∀ f ∈ writings.map Writing.frame, f.WellSized := by
    intro f hf
    rcases List.mem_map.mp hf with ⟨w, hw, hsame⟩
    rw [← hsame]
    exact hsized w hw
  rw [stream_eq]
  generalize writings.map Writing.frame = frames at hframes
  constructor
  · have hnothing : read? [] = none := rfl
    have hread := readAll_flatMap_append hframes hnothing
    rwa [List.append_nil] at hread
  constructor
  · intro front hfront hne
    have hcut : front = (frames.flatMap toBytes).take front.length :=
      List.prefix_iff_eq_take.mp hfront
    have hshort : front.length < (frames.flatMap toBytes).length := by
      rcases Nat.lt_or_eq_of_le hfront.length_le with hlt | heq
      · exact hlt
      · exact absurd (hfront.eq_of_length heq) hne
    rcases exists_cut frames hshort with ⟨whole, f, later, inside, hsplit, hinside, htake⟩
    have hf : f.WellSized := by
      apply hframes f
      rw [hsplit]
      exact List.mem_append_right whole List.mem_cons_self
    have hwhole : ∀ g ∈ whole, g.WellSized := by
      intro g hg
      apply hframes g
      rw [hsplit]
      exact List.mem_append_left _ hg
    refine ⟨whole, f, later, f.toBytes.take inside, hsplit, ?_, List.take_prefix _ _, ?_⟩
    · rw [hcut, htake]
      exact readAll_flatMap_append hwhole (read?_take hf hinside)
    · rw [List.length_take]
      omega
  · intro requested width height ops f
    exact Ring.wellSized_of_mem_run

/-- Two frames, the first with a gain that is not a number, written over old bytes. The
stream is cut inside the pixels of the second frame. -/
theorem readAll_of_two_writings :
    let first : Frame := ⟨{ Header.full 1 1 3 0 with gain := ⟨0x7ff8dead00000000⟩ }, [9]⟩
    let second : Frame := ⟨{ Header.full 2 1 5 7 with recording := true }, [1, 2]⟩
    let writings : List Writing := [⟨[4, 4], first⟩, ⟨[], second⟩]
    (∀ w ∈ writings, w.frame.WellSized) ∧ (stream writings).length = 243 ∧
      readAll (stream writings) = ([first, second], []) ∧
      ∃ whole f later rest, [first, second] = whole ++ f :: later ∧
        readAll ((stream writings).take 242) = (whole, rest) ∧ rest <+: f.toBytes ∧
        rest.length < f.toBytes.length := by
  intro first second writings
  have hsized : ∀ w ∈ writings, w.frame.WellSized := by decide
  have hlength : (stream writings).length = 243 := by decide +kernel
  rcases readAll_stream hsized with ⟨hwhole, hcut, -⟩
  refine ⟨hsized, hlength, hwhole, hcut _ (List.take_prefix _ _) ?_⟩
  intro hsame
  have hshort : ((stream writings).take 242).length = 242 := by decide +kernel
  rw [hsame, hlength] at hshort
  omega

end FrameServer.Frame
