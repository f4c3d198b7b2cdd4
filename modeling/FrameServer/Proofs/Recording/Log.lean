import FrameServer.Proofs.Calendar.Reading
import FrameServer.Proofs.Control.Line
import FrameServer.Recording.Session

/-!
# FrameServer.Proofs.Recording.Log — a session's log read back

Each line of a log has four fields, from which the number of the frame and the moment at
which it was written, to the millisecond, are read back. A log is cut into lines in one
way only, so that it tells which lines were written into it.

1. **Cutting** a text into lines.
2. **Fields**: a line is cut into four fields in one way only.
3. **Lines** of a log.
-/

namespace FrameServer

open Calendar (Instant)
open Decimal (padded natural?)

/-! ## Cutting -/

namespace Reply

theorem OneLine.exists_body {text : List Char} (h : OneLine text) :
    ∃ body, text = body ++ ['\n'] ∧ '\n' ∉ body := by
  have htext : text.dropLast ++ ['\n'] = text := List.dropLast_append_getLast? '\n' h.last
  refine ⟨text.dropLast, htext.symm, ?_⟩
  rw [← htext] at h
  exact oneLine_append_iff.mp h

/-- Texts of one line each are told apart when they stand behind each other. -/
theorem eq_of_flatten_eq {lines parts : List (List Char)} (hlines : ∀ line ∈ lines, OneLine line)
    (hparts : ∀ part ∈ parts, OneLine part) (h : lines.flatten = parts.flatten) :
    lines = parts := by
  induction lines generalizing parts with
  | nil =>
    cases parts with
    | nil => rfl
    | cons part more =>
      obtain ⟨body, hbody, -⟩ := (hparts part List.mem_cons_self).exists_body
      simp [hbody] at h
  | cons line later ih =>
    obtain ⟨body, hbody, hline⟩ := (hlines line List.mem_cons_self).exists_body
    cases parts with
    | nil => simp [hbody] at h
    | cons part more =>
      obtain ⟨body', hbody', hpart⟩ := (hparts part List.mem_cons_self).exists_body
      -- the first line break of both sides ends the first line
      rw [hbody, hbody', List.flatten_cons, List.flatten_cons, List.append_assoc,
        List.append_assoc, List.singleton_append, List.singleton_append] at h
      obtain ⟨hfirst, hrest⟩ := Decimal.eq_of_append_mark_eq hline hpart h
      rw [hbody, hbody', hfirst, ih (fun l hl => hlines l (List.mem_cons_of_mem _ hl))
        (fun p hp => hparts p (List.mem_cons_of_mem _ hp)) hrest]

end Reply

namespace Session

/-! ## Fields -/

/-- A field has something in it, but no blank and no line break. -/
structure Field (text : List Char) : Prop where
  ne_nil : text ≠ []
  blank : ' ' ∉ text
  newline : '\n' ∉ text

/-- A line is four fields with one blank between each of them and the next. -/
structure FourFields (line first second third fourth : List Char) : Prop where
  joined : line = first ++ ' ' :: (second ++ ' ' :: (third ++ ' ' :: (fourth ++ ['\n'])))
  first : Field first
  second : Field second
  third : Field third
  fourth : Field fourth

namespace FourFields

variable {line a b c d a' b' c' d' : List Char}

theorem oneLine (h : FourFields line a b c d) : Reply.OneLine line := by
  have hbody : line = (a ++ ' ' :: (b ++ ' ' :: (c ++ ' ' :: d))) ++ ['\n'] := by
    rw [h.joined]
    simp only [List.append_assoc, List.cons_append]
  rw [hbody, Reply.oneLine_append_iff]
  simp [h.first.newline, h.second.newline, h.third.newline, h.fourth.newline]

theorem unique (h : FourFields line a b c d) (h' : FourFields line a' b' c' d') :
    a = a' ∧ b = b' ∧ c = c' ∧ d = d' := by
  have hjoined := h.joined
  rw [h'.joined] at hjoined
  obtain ⟨hfirst, hrest⟩ :=
    Decimal.eq_of_append_mark_eq h'.first.blank h.first.blank hjoined
  obtain ⟨hsecond, hrest⟩ :=
    Decimal.eq_of_append_mark_eq h'.second.blank h.second.blank hrest
  obtain ⟨hthird, hrest⟩ :=
    Decimal.eq_of_append_mark_eq h'.third.blank h.third.blank hrest
  exact ⟨hfirst.symm, hsecond.symm, hthird.symm, (List.append_cancel_right hrest).symm⟩

end FourFields

/-! ## Lines -/

/-- What a line of the log is written from. -/
structure Line where
  /-- The number of the frame. -/
  number : Nat
  now : Instant
  elapsed : Binary64
deriving DecidableEq, Repr

namespace Line

def text (l : Line) : List Char := timestampLine l.number l.now l.elapsed

theorem fourFields (l : Line) :
    FourFields l.text (padded 5 l.number) (l.now.clockText ':') l.now.dateText
      (Decimal.fixed 6 l.elapsed) := by
  constructor
  · rw [text, timestampLine]
    simp only [List.append_assoc, List.cons_append]
  · exact ⟨Decimal.padded_ne_nil _ _, Decimal.notMem_padded (by decide) _ _,
      Decimal.notMem_padded (by decide) _ _⟩
  · refine ⟨?_, Instant.notMem_clockText (by decide) (by decide) (by decide) _,
      Instant.notMem_clockText (by decide) (by decide) (by decide) _⟩
    simp [Instant.clockText]
  · exact ⟨Instant.dateText_ne_nil _,
      Instant.notMem_dateText (by decide) (by decide) (by decide) (by decide) _,
      Instant.notMem_dateText (by decide) (by decide) (by decide) (by decide) _⟩
  · exact ⟨Decimal.fixed_ne_nil _ _, Decimal.notMem_fixed (by decide) (by decide) _ _,
      Decimal.notMem_fixed (by decide) (by decide) _ _⟩

/-- A line fixes the number of its frame, and its moment to the millisecond. -/
theorem eq_of_text_eq {l l' : Line} (hregular : l.now.Regular) (hregular' : l'.now.Regular)
    (h : l.text = l'.text) :
    l.number = l'.number ∧ l.now.wholeMilliseconds = l'.now.wholeMilliseconds := by
  have hfields := l.fourFields
  rw [h] at hfields
  obtain ⟨hnumber, hclock, hdate, -⟩ := hfields.unique l'.fourFields
  refine ⟨Decimal.eq_of_padded_eq hnumber, ?_⟩
  have hread := Instant.read?_texts hregular
  rw [hclock, hdate, Instant.read?_texts hregular'] at hread
  exact (Option.some.inj hread).symm

end Line

/-- Each line of a log has four fields; the first one denotes the number of the frame, and
the third and the second one the moment to the millisecond. Only the lines themselves are
a way to cut the log into lines, and lines with other numbers or moments are others. -/
theorem log_reads_back (lines : List Line) (hregular : ∀ l ∈ lines, l.now.Regular) :
    (∀ l ∈ lines, ∃ number clock date elapsed,
        FourFields l.text number clock date elapsed ∧ Reply.OneLine l.text ∧
          natural? number = some l.number ∧
          Instant.read? date clock = some l.now.wholeMilliseconds) ∧
      (∀ parts : List (List Char), (∀ part ∈ parts, Reply.OneLine part) →
        (parts.flatten = lines.flatMap Line.text ↔ parts = lines.map Line.text)) ∧
      ∀ l ∈ lines, ∀ l' ∈ lines,
        l.number ≠ l'.number ∨ l.now.wholeMilliseconds ≠ l'.now.wholeMilliseconds →
          l.text ≠ l'.text := by
  refine ⟨?_, ?_, ?_⟩
  · intro l hl
    exact ⟨_, _, _, _, l.fourFields, l.fourFields.oneLine, Decimal.natural?_padded _ _,
      Instant.read?_texts (hregular l hl)⟩
  · intro parts hparts
    rw [List.flatMap_def]
    constructor
    · refine Reply.eq_of_flatten_eq hparts ?_
      intro line hline
      obtain ⟨l, -, rfl⟩ := List.mem_map.mp hline
      exact l.fourFields.oneLine
    · rintro rfl
      rfl
  · intro l hl l' hl' hother htext
    obtain ⟨hnumber, hmoment⟩ := Line.eq_of_text_eq (hregular l hl) (hregular l' hl') htext
    rcases hother with hne | hne
    · exact hne hnumber
    · exact hne hmoment

/-- A frame in the leap second at the end of 2016, and one on the leap day of year 0. -/
theorem log_of_leap_second_and_leap_day :
    let leap : Line := ⟨123456, ⟨1483228799, 1500000999⟩, Binary64.nan⟩
    let early : Line := ⟨7, ⟨-62162035201, 999999999⟩, 0⟩
    (∀ l ∈ [leap, early], l.now.Regular) ∧
      (∃ number clock date elapsed,
        FourFields leap.text number clock date elapsed ∧ natural? number = some 123456 ∧
          Instant.read? date clock = some ⟨1483228799, 1500000000⟩) ∧
      (∀ parts : List (List Char), (∀ part ∈ parts, Reply.OneLine part) →
        (parts.flatten = leap.text ++ early.text ↔ parts = [leap.text, early.text])) ∧
      leap.text ≠ early.text := by
  intro leap early
  have hregular : ∀ l ∈ [leap, early], l.now.Regular := by
    intro l hl
    rcases List.mem_pair.mp hl with rfl | rfl <;> constructor <;> decide
  obtain ⟨hread, hcut, hdiffer⟩ := log_reads_back [leap, early] hregular
  obtain ⟨number, clock, date, elapsed, hfields, -, hnumber, hmoment⟩ :=
    hread leap List.mem_cons_self
  have hwhole : leap.now.wholeMilliseconds = ⟨1483228799, 1500000000⟩ := by decide
  rw [hwhole] at hmoment
  refine ⟨hregular, ⟨number, clock, date, elapsed, hfields, hnumber, hmoment⟩, ?_, ?_⟩
  · simpa using hcut
  · exact hdiffer leap List.mem_cons_self early (by simp) (.inl (by decide))

end Session

end FrameServer
