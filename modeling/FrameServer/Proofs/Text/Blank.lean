import Mathlib.Data.List.Basic
import Mathlib.Data.List.TakeWhile
import FrameServer.Text.Blank

/-!
# FrameServer.Proofs.Text.Blank — what is left of a text after trimming

Trimming is described by what was taken off: the text is what is left with
characters of the class around it, and what is left has no such character at its
ends.

1. **The end** of a text.
2. **Both ends**
-/

namespace FrameServer.Text

/-! ## The end -/

/-- The text is `core` with characters of the class behind it, and `core` does not end
with one of them. -/
structure EndsIn (p : Char → Bool) (core text : List Char) : Prop where
  split : ∃ back, text = core ++ back ∧ ∀ c ∈ back, p c = true
  last : ∀ c ∈ core.getLast?, p c = false

theorem endsIn_dropTrailing (p : Char → Bool) (text : List Char) :
    EndsIn p (dropTrailing p text) text := by
  constructor
  · -- what was dropped is the run at the front of the reversed text
    refine ⟨(text.reverse.takeWhile p).reverse, ?_, ?_⟩
    · rw [dropTrailing, ← List.reverse_append, List.takeWhile_append_dropWhile,
        List.reverse_reverse]
    · intro c hc
      exact List.mem_takeWhile_imp (List.mem_reverse.mp hc)
  · intro c hc
    rw [dropTrailing, List.getLast?_reverse] at hc
    obtain ⟨rest, hrest⟩ := List.head?_eq_some_iff.mp hc
    have hhead := List.head_dropWhile_not p (l := text.reverse) (by simp [hrest])
    simpa [hrest] using hhead

/-- More characters of the class behind the text are dropped as well. -/
theorem dropTrailing_append {p : Char → Bool} (text : List Char) {back : List Char}
    (hback : ∀ c ∈ back, p c = true) : dropTrailing p (text ++ back) = dropTrailing p text := by
  have hall : ∀ c ∈ back.reverse, p c = true := fun c hc => hback c (List.mem_reverse.mp hc)
  rw [dropTrailing, dropTrailing, List.reverse_append, List.dropWhile_append_of_pos hall]

theorem EndsIn.dropTrailing_eq {p : Char → Bool} {core text : List Char}
    (h : EndsIn p core text) : dropTrailing p text = core := by
  obtain ⟨back, rfl, hback⟩ := h.split
  rw [dropTrailing_append core hback, dropTrailing]
  -- dropping stops at once at the last character of the core
  rcases List.eq_nil_or_concat core with rfl | ⟨front, c, rfl⟩
  · rfl
  · have hc : p c = false := h.last c (by simp)
    simp [hc]

/-- A character of the class stays in the text exactly if one that is not in the class
stands behind it. -/
theorem mem_dropTrailing_iff {p : Char → Bool} {c : Char} (hc : p c = true) {text : List Char} :
    c ∈ dropTrailing p text ↔
      ∃ before after, text = before ++ c :: after ∧ ∃ d ∈ after, p d = false := by
  have hends := endsIn_dropTrailing p text
  generalize dropTrailing p text = core at hends
  obtain ⟨back, hsplit, hback⟩ := hends.split
  constructor
  · intro hmem
    obtain ⟨before, rest, rfl⟩ := List.append_of_mem hmem
    refine ⟨before, rest ++ back, by simp [hsplit], ?_⟩
    -- the last character of the core is not in the class, so it is not this one
    rcases List.eq_nil_or_concat' rest with rfl | ⟨front, d, rfl⟩
    · have hlast := hends.last c (by simp)
      rw [hc] at hlast
      cases hlast
    · refine ⟨d, by simp, hends.last d ?_⟩
      rw [← List.cons_append, ← List.append_assoc]
      exact List.getLast?_concat
  · rintro ⟨before, after, htext, d, hd, hpd⟩
    rw [htext] at hsplit
    rcases List.append_eq_append_iff.mp hsplit with ⟨mid, hcore, hrest⟩ | ⟨mid, -, hrest⟩
    · cases mid with
      | nil =>
        have hall := hback d (by rw [List.nil_append] at hrest; rw [← hrest]; simp [hd])
        rw [hpd] at hall
        cases hall
      | cons e mid =>
        obtain ⟨rfl, -⟩ := List.cons.inj hrest
        simp [hcore]
    · -- the character would stand in what was dropped, and with it all that is behind it
      have hall := hback d (by rw [hrest]; simp [hd])
      rw [hpd] at hall
      cases hall

/-! ## Both ends -/

/-- The text is `core` with white space around it, and `core` neither begins nor ends
with white space. -/
structure Trimmed (core text : List Char) : Prop where
  split : ∃ front back, text = front ++ core ++ back ∧
    (∀ c ∈ front, isBlank c = true) ∧ ∀ c ∈ back, isBlank c = true
  first : ∀ c ∈ core.head?, isBlank c = false
  last : ∀ c ∈ core.getLast?, isBlank c = false

theorem trimmed_trim (text : List Char) : Trimmed (trim text) text := by
  have hends := endsIn_dropTrailing isBlank (text.dropWhile isBlank)
  obtain ⟨back, hsplit, hback⟩ := hends.split
  constructor
  · refine ⟨text.takeWhile isBlank, back, ?_, ?_, hback⟩
    · rw [trim, List.append_assoc, ← hsplit, List.takeWhile_append_dropWhile]
    · intro c hc
      exact List.mem_takeWhile_imp hc
  · -- the core begins where the white space at the front stopped
    intro c hc
    obtain ⟨rest, hrest⟩ := List.head?_eq_some_iff.mp hc
    rw [trim] at hrest
    rw [hrest] at hsplit
    have hhead := List.head_dropWhile_not isBlank (l := text) (by simp [hsplit])
    simpa [hsplit] using hhead
  · exact hends.last

theorem Trimmed.trim_eq {core text : List Char} (h : Trimmed core text) : trim text = core := by
  obtain ⟨front, back, rfl, hfront, hback⟩ := h.split
  rw [trim, List.append_assoc, List.dropWhile_append_of_pos hfront]
  cases core with
  | nil =>
    have hnone : back.dropWhile isBlank = [] := List.dropWhile_eq_nil_iff.mpr hback
    rw [List.nil_append, hnone]
    rfl
  | cons c rest =>
    have hc : isBlank c = false := h.first c rfl
    have hstop : (c :: rest ++ back).dropWhile isBlank = c :: rest ++ back := by simp [hc]
    rw [hstop]
    exact EndsIn.dropTrailing_eq ⟨⟨back, rfl, hback⟩, h.last⟩

end FrameServer.Text
