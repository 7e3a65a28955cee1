import BlockPlan.Text.Basic
import BlockPlan.Value.Show
import BlockPlan.Failure
import BlockPlan.Calls

/-!
# Places and faults in YAML text

A `Mark` is a place in a YAML stream: the code-point index, the line and the column, each
counted from zero. A byte-order mark does not move the column, and a carriage return only ends
a line when no line feed follows it.

A `YamlFault` says why a stream cannot be read. Most faults are `marked`: a context with the
place it began and a problem with the place it was found. Their message gives each part on a
line of its own, each place as `in "<stream>", line L, column C` counted from one, and leaves
the context's place out when the problem stands at the same line and column. A character that
may not stand in a stream at all is `unacceptable`, reported by its position. A value that the
text spells but that cannot exist (a month 13, an unknown truth word under an explicit tag) is
a `failure` of another kind, which a caller does not treat as a fault of the text.
-/

namespace BlockPlan.Yaml

/-- A place in a stream, counted from zero. -/
structure Mark where
  index : Nat
  line : Nat
  column : Nat
  deriving Inhabited, DecidableEq

/-- The line that names a place of a stream, counted from one. -/
def Mark.describe (stream : Text) (m : Mark) : Text :=
  Text.ofString "  in \"" ++ stream ++ Text.ofString (s!"\", line {m.line + 1}, column {m.column + 1}")

/-- Why a YAML stream cannot be read. -/
inductive YamlFault where
  /-- A fault of the text: the context it was met in and where that began, then the problem
  and where it was found. -/
  | marked (context : Option Text) (contextMark : Option Mark) (problem : Text)
      (problemMark : Option Mark)
  /-- A character that no stream may hold, at a code-point position. -/
  | unacceptable (point : Nat) (position : Nat)
  /-- A value spelled by the text that cannot exist. -/
  | failure (f : Failure)
  deriving Inhabited

/-- A fault with a problem found at a place, in a context that began at another. -/
def YamlFault.within (context : String) (start : Mark) (problem : Text) (m : Mark) : YamlFault :=
  .marked (some (Text.ofString context)) (some start) problem (some m)

/-- A fault with a problem found at a place, without context. -/
def YamlFault.found (problem : Text) (m : Mark) : YamlFault := .marked none none problem (some m)

/-- Nothing, when work whose first call stands at depth `depth` nests no deeper than the host
allows; otherwise the failure of the first call that would. -/
def YamlFault.checkCalls (depth : Nat) (r : Reach) : Except YamlFault Unit :=
  match Reach.overflow depth r with
  | some k => .error (.failure (.of .recursion (Text.ofString k.overflowMessage)))
  | none => .ok ()

/-- Whether two places stand at the same line and column. -/
def Mark.sameSpot (a b : Mark) : Bool := a.line == b.line && a.column == b.column

/-- The message of a fault, for a stream of the given name. -/
def YamlFault.message (stream : Text) : YamlFault → Text
  | .marked context contextMark problem problemMark =>
    let head := context.toList
    let place := match contextMark with
      | some c =>
        match problemMark with
        | some p => if c.sameSpot p then [] else [c.describe stream]
        | none => [c.describe stream]
      | none => []
    let tail := problem :: (problemMark.map (·.describe stream)).toList
    Text.join "\n" (head ++ place ++ tail)
  | .unacceptable c pos =>
    Text.ofString ("unacceptable character #x" ++ hexDigits 4 c ++
      ": special characters are not allowed\n  in \"") ++ stream ++
      Text.ofString (s!"\", position {pos}")
  | .failure f => f.message

def quoted (c : Nat) : Text := Text.ofString (reprText (Text.single c))

end BlockPlan.Yaml
