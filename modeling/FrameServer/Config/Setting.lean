import FrameServer.Text.Blank
import FrameServer.Toml.Document

/-!
# FrameServer.Config.Setting — layers of settings

Settings form a tree of sections. Layers are laid over each other value by value:
a section of an upper layer is merged into the one below, anything else replaces
what is below it. The names of settings are folded to lower case.

1. **The tree**
2. **Merging**
3. **Key paths** with dots and indices, as they may stand in names.
4. **Values** as the types of fields.

The rules are those that version 0.14 of the `config` library documents for its sources
and for reading a value as a type:

* a later source overrides an earlier one key by key, and keys are told apart without
  regard to case;
* a key may be a path, such as `a.b[0]`; a negative index counts from the end, and
  what a path leads to is created on the way;
* a number can be read from another kind of number, from a boolean as 1 or 0, and from
  a text that is a numeral or one of the words `true`, `on`, `yes`, `false`, `off` and
  `no`; a float is rounded to the nearest integer, halves away from zero, and
  saturates at 64 bits;
* a boolean can be read from a number, which is true unless it is zero, and from these
  words, `1` and `0`;
* a text can be read from a boolean and from a number as they are printed;
* a list or a table cannot be read as any of these.
-/

namespace FrameServer

/-! ## The tree -/

inductive Setting where
  /-- A place that nothing was written to. -/
  | absent
  | boolean (b : Bool)
  | integer (n : Int)
  | float (x : Binary64)
  | text (s : String)
  | list (items : List Setting)
  | group (entries : List (String × Setting))
deriving Repr, Inhabited

namespace Setting

mutual

/-- The settings in a value of a document. -/
def ofValue : Toml.Value → Setting
  | .string s => .text s
  | .integer n => .integer n
  | .float x => .float x
  | .boolean b => .boolean b
  | .moment m => .text m
  | .array items => .list (ofValues items)
  | .tables items => .list (ofValues items)
  | .table _ entries => .group (ofEntries entries)

def ofValues : List Toml.Value → List Setting
  | [] => []
  | v :: rest => ofValue v :: ofValues rest

/-- The settings in the entries of a table. -/
def ofEntries : List (String × Toml.Value) → List (String × Setting)
  | [] => []
  | (key, v) :: rest => (key, ofValue v) :: ofEntries rest

end

/-- The entries of a group; anything else has none. -/
def entries : Setting → List (String × Setting)
  | group entries => entries
  | _ => []

/-- The items of a list; anything else has none. -/
def items : Setting → List Setting
  | list items => items
  | _ => []

def isGroup : Setting → Bool
  | group _ => true
  | _ => false

/-- Writes an entry of a group; anything else becomes a group first. -/
def put (s : Setting) (key : String) (v : Setting) : Setting :=
  if s.entries.any (·.1 = key) then
    .group (s.entries.map fun e => if e.1 = key then (key, v) else e)
  else .group (s.entries ++ [(key, v)])

/-! ## Merging -/

/-- A name in lower case. The Kelvin sign is the one character beyond ASCII whose
lower case is an ASCII letter. -/
def foldName (name : String) : String :=
  name.map fun c => if c = '\u212a' then 'k' else c.toLower

mutual

/-- Lays a value over the entry with a given name. -/
def merge (name : String) : Setting → Setting → Setting
  | .group upper, s => s.put name (mergeAll upper ((s.entries.lookup name).getD (.group [])))
  | v, s => s.put name v

/-- Lays the entries of a group over a setting. -/
def mergeAll : List (String × Setting) → Setting → Setting
  | [], s => s
  | (name, v) :: rest, s => mergeAll rest (merge (foldName name) v s)

end

/-! ## Key paths -/

/-- How a key path goes on. -/
inductive Step where
  | child (name : String)
  | index (i : Int)
deriving DecidableEq, Repr

/-- The characters of a name within a key path. -/
def isNameChar (c : Char) : Bool := c.isAlphanum || c = ' ' || c = '_' || c = '-'

/-- White space around an index. -/
def isGap (c : Char) : Bool := c = ' ' || c = '\t'

/-- An index in brackets, after the opening one. It has no plus sign. -/
def index? (chars : List Char) : Option (Int × List Char) := do
  let inner := Text.dropTrailing isGap ((chars.takeWhile (· ≠ ']')).dropWhile isGap)
  let i ← if inner.head? = some '+' then none else Decimal.integer? inner
  match chars.dropWhile (· ≠ ']') with
  | [] => none
  | _ :: rest => if fitsInt64 i then some (i, rest) else none

/-- The steps after the first name, at most `bound`. -/
def steps? : (bound : Nat) → List Char → Option (List Step)
  | _, [] => some []
  | 0, _ => none
  | bound + 1, '.' :: rest => do
    let name := rest.takeWhile isNameChar
    if name = [] then none
    else some (.child (String.ofList name) :: (← steps? bound (rest.dropWhile isNameChar)))
  | bound + 1, '[' :: rest => do
    let (i, rest) ← index? rest
    some (.index i :: (← steps? bound rest))
  | _, _ => none

/-- A name and the steps after it. A text that is no key path is one name. -/
def keyPath (key : String) : String × List Step :=
  let chars := key.toList
  let name := chars.takeWhile isNameChar
  match if name = [] then none else steps? chars.length (chars.dropWhile isNameChar) with
  | some steps => (String.ofList name, steps)
  | none => (key, [])

/-- The place of an index in a list; negative ones count from the end. -/
def position (i : Int) (length : Nat) : Nat :=
  if 0 ≤ i then i.toNat else length - i.natAbs

/-- Changes an item of a list, which is made longer if need be. -/
def atIndex (i : Int) (f : Setting → Setting) (s : Setting) : Setting :=
  let place := position i s.items.length
  let filled := s.items ++ List.replicate (place + 1 - s.items.length) .absent
  .list (filled.modify place f)

/-- Changes what some steps lead to, making groups and lists of what is not. -/
def atSteps (f : Setting → Setting) : List Step → Setting → Setting
  | [], s => f s
  | .child name :: rest, s =>
    s.put name (atSteps f rest ((s.entries.lookup name).getD .absent))
  | .index i :: rest, s => atIndex i (atSteps f rest) s

/-- Lays a value over what a key path leads to. -/
def assign (s : Setting) (path : String × List Step) (v : Setting) : Setting :=
  let (name, steps) := path
  match steps.getLast? with
  | none => merge (foldName name) v s
  | some (.child last) =>
    atSteps (fun parent => merge (foldName last) v parent) (.child name :: steps.dropLast) s
  | some (.index i) => atSteps (atIndex i fun _ => v) (.child name :: steps.dropLast) s

/-- Lays the entries of a layer over the settings below. -/
def overlay (layer : List (String × Setting)) (s : Setting) : Setting :=
  layer.foldl (fun s (key, v) => s.assign (keyPath key) v) s

/-! ## Values -/

/-- Words for yes and no. -/
def word? (s : String) : Option Bool :=
  let s := foldName s
  if s ∈ ["true", "on", "yes"] then some true
  else if s ∈ ["false", "off", "no"] then some false
  else none

/-- A natural number of 64 bits. A negative integer is none, and a negative float is
zero. -/
def asNatural? : Setting → Option Nat
  | boolean b => some b.toNat
  | integer n => if n < 0 then none else some n.toNat
  | float x => some (min x.nearestInt.toNat (UInt64.size - 1))
  | text s =>
    match word? s with
    | some b => some b.toNat
    | none => (Decimal.unsigned? s.toList).filter (· < UInt64.size)
  | _ => none

/-- An integer of 64 bits. -/
def asInteger? : Setting → Option Int
  | boolean b => some b.toNat
  | integer n => some n
  | float x => some (min (max x.nearestInt Int64.minValue.toInt) Int64.maxValue.toInt)
  | text s =>
    match word? s with
    | some b => some b.toNat
    | none => (Decimal.integer? s.toList).filter fitsInt64
  | _ => none

def asFloat? : Setting → Option Binary64
  | boolean b => some (.ofNat b.toNat)
  | integer n => some (.ofInt n)
  | float x => some x
  | text s =>
    match word? s with
    | some b => some (.ofNat b.toNat)
    | none => Decimal.float? s.toList
  | _ => none

def asBool? : Setting → Option Bool
  | boolean b => some b
  | integer n => some (n ≠ 0)
  | float x => some (x.isNaN || x.magnitude ≠ 0)
  | text s => if s = "1" then some true else if s = "0" then some false else word? s
  | _ => none

def asText? : Setting → Option String
  | boolean b => some (if b then "true" else "false")
  | integer n => some (String.ofList (Decimal.integer n))
  | float x => some (Decimal.text Decimal.inMessage x)
  | text s => some s
  | _ => none

end Setting

end FrameServer
