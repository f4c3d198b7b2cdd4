import FrameServer.Number.Binary64

/-!
# FrameServer.Toml.Value — what a TOML document says

Values, with a note for each table of how it came about: only some tables can be
added to by later lines of the document.

The grammar that the readers follow, and the rules on which keys and tables may be
defined again, are those of TOML 1.0.0. Where it leaves a choice, integers have 64 bits,
floats are binary64 and do not overflow upwards, a fraction of a second is cut to nine
digits, and neither values nor keys are nested without a bound.
-/

namespace FrameServer.Toml

/-- How a table came about. -/
inductive TableKind where
  /-- Written between braces; complete. -/
  | inline
  /-- Named by a header, or the document itself. -/
  | explicit
  /-- Passed through by a header. -/
  | implicit
  /-- Passed through by a dotted key. -/
  | dotted
deriving DecidableEq, Repr

inductive Value where
  | string (text : String)
  | integer (n : Int)
  | float (x : Binary64)
  | boolean (b : Bool)
  /-- A date, a time or both, in their normal form. -/
  | moment (text : String)
  | array (items : List Value)
  /-- The tables of headers in double brackets, in their order. -/
  | tables (items : List Value)
  | table (kind : TableKind) (entries : List (String × Value))
deriving Repr, Inhabited

/-- The entries of a table, in the order of their first mention. -/
abbrev Entries := List (String × Value)

/-- Replaces the value of a key that is there. -/
def Entries.replace (key : String) (v : Value) (entries : Entries) : Entries :=
  entries.map fun e => if e.1 = key then (key, v) else e

def Entries.remove (key : String) (entries : Entries) : Entries := entries.filter (·.1 ≠ key)

/-- Adds a key that is not there yet. -/
def Entries.add? (key : String) (v : Value) (entries : Entries) : Option Entries :=
  match entries.lookup key with
  | none => some (entries ++ [(key, v)])
  | some _ => none

end FrameServer.Toml
