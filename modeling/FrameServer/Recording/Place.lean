import FrameServer.Recording.Archive

/-!
# FrameServer.Recording.Place — what paths lead to

Folders and files below a working directory, and where a path leads in them. A
path goes on through folders only; two points lead back to the folder above.
-/

namespace FrameServer

/-- The folders and files below a directory with a name of its own. -/
structure Tree where
  name : String
  folders : List (List String)
  files : List (List String)
deriving Repr

/-- Where a path leads. -/
inductive Place where
  | folder (path : List String)
  | file
  | missing
  /-- It goes on behind a file. -/
  | blocked
deriving DecidableEq, Repr

namespace Tree

/-- The parts of a path that lead anywhere. -/
def parts (path : String) : List String := (path.splitOn "/").filter fun p => p ≠ "" && p ≠ "."

/-- A folder with the folders that it lies in. -/
def leading (path : List String) : List (List String) :=
  (List.range (path.length + 1)).map path.take

/-- The tree of some folders and files, with all the folders that they lie in. -/
def ofPaths (name : String) (folders files : List String) : Tree where
  name
  folders := [] :: folders.flatMap (fun p => leading (parts p)) ++
    files.flatMap fun p => leading (parts p).dropLast
  files := files.map parts

/-- Follows a path from a place. -/
def follow (t : Tree) : List String → Place → Place
  | part :: rest, .folder path =>
    if part = ".." then t.follow rest (.folder path.dropLast)
    else
      let next := path ++ [part]
      if t.folders.contains next then t.follow rest (.folder next)
      else if t.files.contains next then t.follow rest .file
      else .missing
  | _ :: _, .file => .blocked
  | _, place => place

/-- Where a path leads from the directory, which may be named or is the one that
work is done in. What lies outside is missing. -/
def find (t : Tree) (path : String) : Place :=
  match parts path with
  | [] => if path.startsWith "/" then .missing else .folder []
  | first :: rest =>
    if path.startsWith "/" then .missing
    else if first = t.name then t.follow rest (.folder [])
    else t.follow (first :: rest) (.folder [])

/-- What recording finds where a path leads. -/
def root (t : Tree) (path : String) : Root :=
  match t.find path with
  | .folder path =>
    let inside := (t.folders ++ t.files).filter fun p => p ≠ [] && p.dropLast = path
    .folder (inside.filterMap List.getLast?).eraseDups []
  | .file => .file
  | .missing => .missing
  | .blocked => .blocked "Not a directory (os error 20)"

/-- Two paths lead to one folder. -/
def sameFolder (t : Tree) (a b : String) : Bool :=
  match t.find a, t.find b with
  | .folder a, .folder b => a = b
  | _, _ => false

end Tree

end FrameServer
