import BlockPlan.Text.Basic
import BlockPlan.Text.Unicode

/-!
# Upper and lower case

`Text.lower` and `Text.upper` map every code point to its full case mapping, which may be more
than one code point (`ß` is `SS` in upper case, `İ` is `i` and a combining dot above in lower
case). The one mapping that looks at the neighbours is capital sigma in lower case: it is final
sigma `ς` when a cased character stands before it and none after it, characters that case
mapping looks past (`isCaseIgnorable`) skipped on both sides; otherwise it is `σ`.
-/

namespace BlockPlan

namespace Unicode

def isCased (c : Nat) : Bool := inRanges casedRanges c

/-- Whether case mapping looks past a character when it decides the form of sigma. -/
def isCaseIgnorable (c : Nat) : Bool := inRanges caseIgnorableRanges c

/-- The mapping of a code point by special entries first, then by runs. -/
def mapByRuns (runs : List (Nat × Nat × Nat × Int)) (special : List (Nat × List Nat)) (c : Nat) :
    List Nat :=
  match special.lookup c with
  | some m => m
  | none =>
    match runs.find? (fun (a, b, s, _) => a ≤ c && c ≤ b && (c - a) % s == 0) with
    | some (_, _, _, d) => [((c : Int) + d).toNat]
    | none => [c]

def upperOf (c : Nat) : List Nat := mapByRuns upperRuns upperSpecial c

/-- The lower case of a code point other than capital sigma. -/
def lowerOf (c : Nat) : List Nat := mapByRuns lowerRuns lowerSpecial c

/-- Whether a capital sigma between `before` (nearest first) and `after` ends a word: a cased
character before it and no cased character after it, case-ignorable characters skipped. -/
def endsWord (before after : List Nat) : Bool :=
  (match before.dropWhile isCaseIgnorable with
    | c :: _ => isCased c
    | [] => false) &&
  (match after.dropWhile isCaseIgnorable with
    | c :: _ => !isCased c
    | [] => true)

end Unicode

namespace Text

/-- The code points in lower case; `before` holds those already passed, nearest first. -/
def lowerPoints (before : List Nat) : List Nat → List Nat
  | [] => []
  | c :: rest =>
    let mapped :=
      if c == 0x3A3 then [if Unicode.endsWord before rest then 0x3C2 else 0x3C3]
      else Unicode.lowerOf c
    mapped ++ lowerPoints (c :: before) rest

def lower (t : Text) : Text := ⟨lowerPoints [] t.points⟩

def upper (t : Text) : Text := ⟨t.points.flatMap Unicode.upperOf⟩

end Text

end BlockPlan
