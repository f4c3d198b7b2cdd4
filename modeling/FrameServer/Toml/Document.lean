import FrameServer.Toml.Reader

/-!
# FrameServer.Toml.Document — whole documents

A document is a list of lines: pairs go into the table that the last header
named, and headers begin a new table. A table may be named once; tables that were
only passed through on the way to others can still be named, and pairs with
dotted keys add only to tables that were not named.

1. **Paths** through the tables of a document.
2. **Tables under construction**
3. **Lines**
-/

namespace FrameServer.Toml

/-! ## Paths -/

/-- Changes the entries that a path leads to, creating the tables in between; a
path that leads through the tables of double brackets takes the last of them. A
path of dotted keys does not lead through tables that were named. -/
def along (isDotted : Bool) (f : TableKind → Entries → Option Entries) :
    List String → TableKind → Entries → Option Entries
  | [], kind, entries => f kind entries
  | key :: path, _, entries =>
    match entries.lookup key with
    | none => do
      let kind := if isDotted then TableKind.dotted else .implicit
      let inner ← along isDotted f path kind []
      some (entries ++ [(key, .table kind inner)])
    | some (.table kind inner) =>
      if kind = .inline ∨ (isDotted ∧ kind = .explicit) then none
      else do
        let inner ← along isDotted f path kind inner
        some (entries.replace key (.table kind inner))
    | some (.tables items) =>
      match items.getLast? with
      | some (.table kind inner) => do
        let inner ← along isDotted f path kind inner
        some (entries.replace key (.tables (items.dropLast ++ [.table kind inner])))
      | _ => none
    | some _ => none

/-! ## Tables under construction -/

/-- A document as far as it was read. The table that pairs go into is kept apart
from the rest until the next header. -/
structure Draft where
  root : Entries
  /-- The path of the table that pairs go into; the document itself at first. -/
  path : List String
  /-- The table is one of several with its path. -/
  oneOfMany : Bool
  current : Entries

namespace Draft

def empty : Draft := ⟨[], [], false, []⟩

/-- Changes the entries in which the last key of a path stands. -/
def atParent (path : List String) (f : String → Entries → Option Entries) (root : Entries) :
    Option Entries :=
  match path.getLast? with
  | none => none
  | some key => along false (fun _ => f key) path.dropLast .explicit root

/-- The whole document, with the table under construction in its place. -/
def finish? (d : Draft) : Option Entries :=
  if d.path = [] then some d.current
  else atParent d.path (fun key entries =>
    if d.oneOfMany then
      match entries.lookup key with
      | some (.tables items) =>
        some (entries.replace key (.tables (items ++ [.table .explicit d.current])))
      | _ => none
    else entries.add? key (.table .explicit d.current)) d.root

/-- Begins the table that a header names; one that was passed through before
keeps what is in it. -/
def beginTable? (path : List String) (d : Draft) : Option Draft := do
  let root ← d.finish?
  let parent ← path.getLast?
  let mut current : Entries := []
  match lookup path.dropLast root with
  | none => pure ()
  | some entries =>
    match entries.lookup parent with
    | none => pure ()
    | some (.table .implicit inner) => current := inner
    | some _ => failure
  let root ← atParent path (fun key entries => some (entries.remove key)) root
  some ⟨root, path, false, current⟩
where
  /-- The entries that a path leads to. -/
  lookup : List String → Entries → Option Entries
    | [], entries => some entries
    | key :: path, entries =>
      match entries.lookup key with
      | some (.table _ inner) => lookup path inner
      | some (.tables items) =>
        match items.getLast? with
        | some (.table _ inner) => lookup path inner
        | _ => none
      | _ => none

/-- Begins one more of the tables that a header in double brackets names. -/
def beginOneOfMany? (path : List String) (d : Draft) : Option Draft := do
  let root ← d.finish?
  let root ← atParent path (fun key entries =>
    match entries.lookup key with
    | none => some (entries ++ [(key, .tables [])])
    | some (.tables _) => some entries
    | some _ => none) root
  some ⟨root, path, true, []⟩

/-- Adds a pair to the table under construction. -/
def add? (path : List String) (v : Value) (d : Draft) : Option Draft := do
  let current ← assign (along true) path v .explicit d.current
  some { d with current }

end Draft

/-! ## Lines -/

/-- Reads a header or a pair, up to the end of its line. -/
def line? (d : Draft) : List Char → Option (Draft × List Char)
  | '[' :: '[' :: rest => do
    let (path, rest) ← key? rest
    let rest ← lineEnd? (← mark? ']' (← mark? ']' rest))
    some (← d.beginOneOfMany? path, rest)
  | '[' :: rest => do
    let (path, rest) ← key? rest
    let rest ← lineEnd? (← mark? ']' rest)
    some (← d.beginTable? path, rest)
  | text => do
    let ((path, v), rest) ← pair? value? text
    let rest ← lineEnd? rest
    some (← d.add? path v, rest)

/-- Reads lines to the end of the text, at most `bound` of them. -/
def lines? : (bound : Nat) → Draft → List Char → Option Draft
  | 0, _, _ => none
  | bound + 1, d, text =>
    match skipSpace text with
    | [] => some d
    | text => do
      let (d, rest) ← line? d text
      lines? bound d rest

/-- The entries of a document. A byte order mark in front of it is skipped. -/
def document? (text : List Char) : Option Entries := do
  let text := match text with
    | '\ufeff' :: rest => rest
    | text => text
  (← lines? (text.length + 1) .empty text).finish?

end FrameServer.Toml
