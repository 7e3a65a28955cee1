import BlockPlan.Text.Basic

/-!
# Working directories

A `Folder` is what a run sees of its working directory: the path of the directory itself, as
messages write it, and the files and directories under it by relative path. A directory also
stands wherever a file lies below it.

Paths are written the way the file system library writes them (`Path.normalize`): empty and `.`
parts are dropped, so `./a//b/` is `a/b`, and a path with no parts left is `.`. The suffix of a
path is that of its last part, from its last dot, unless that dot starts or ends the part.
-/

namespace BlockPlan

/-- What stands at a path. -/
inductive Entry where
  | file (bytes : List UInt8)
  | directory
  deriving Inhabited

/-- A working directory: its own path and what lies below it. -/
structure Folder where
  root : Text
  entries : List (Text × Entry)
  deriving Inhabited

namespace Path

/-- A path with empty and `.` parts dropped. -/
def normalize (p : Text) : Text :=
  let absolute := p.points.head? == some '/'.toNat
  let parts := (p.splitOn '/'.toNat).filter fun s => !s.isEmpty && s != Text.ofString "."
  let body := Text.join "/" parts
  if absolute then Text.ofString "/" ++ body
  else if parts.isEmpty then Text.ofString "." else body

def name (p : Text) : Text := ((normalize p).splitOn '/'.toNat).getLastD Text.empty

/-- The suffix of a path: its last part from the last dot, when that dot neither starts nor ends
the part. -/
def suffix (p : Text) : Text :=
  let n := (name p).points
  match (n.zipIdx.filter (·.1 == '.'.toNat)).getLast? with
  | some (_, i) => if 0 < i && i + 1 < n.length then ⟨n.drop i⟩ else Text.empty
  | none => Text.empty

/-- A path with `..` parts taken back against the parts before them. -/
def collapse (p : Text) : Text :=
  let n := normalize p
  let absolute := n.points.head? == some '/'.toNat
  let parts := (n.splitOn '/'.toNat).filter fun s => !s.isEmpty
  let kept := parts.foldl (fun acc part =>
    if part == Text.ofString ".." then
      match acc.getLast? with
      | some last => if last == Text.ofString ".." then acc ++ [part] else acc.dropLast
      | none => if absolute then acc else acc ++ [part]
    else acc ++ [part]) []
  let body := Text.join "/" kept
  if absolute then Text.ofString "/" ++ body
  else if kept.isEmpty then Text.ofString "." else body

end Path

namespace Folder

/-- A path relative to the folder: paths under the folder's own path lose that part. -/
def relative (f : Folder) (p : Text) : Text :=
  let p := Path.collapse p
  let root := Path.collapse f.root
  if p == root then Text.ofString "."
  else if (root ++ Text.ofString "/").points.isPrefixOf p.points then
    ⟨p.points.drop (root.length + 1)⟩
  else p

/-- What stands at a path. -/
def entry (f : Folder) (p : Text) : Option Entry :=
  let p := f.relative p
  if p == Text.ofString "." then some .directory
  else
    match f.entries.lookup p with
    | some e => some e
    | none =>
      if f.entries.any (fun e => (p ++ Text.ofString "/").points.isPrefixOf e.1.points) then
        some .directory
      else none

def write (f : Folder) (p : Text) (bytes : List UInt8) : Folder :=
  let p := f.relative p
  { f with entries := putEntry f.entries p (.file bytes) }

def absolute (f : Folder) (p : Text) : Text := f.root ++ Text.ofString "/" ++ p

end Folder

end BlockPlan
