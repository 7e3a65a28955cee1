import BlockPlan.Text.Basic

/-!
# Regular patterns over code points

A `Pattern` describes a regular language: single characters of a class, concatenation,
alternation and repetition. `Pattern.rests p s` lists what may remain of `s` after a prefix of
it that `p` matches; `Pattern.accepts` asks for the whole text. A repetition only repeats a
match that consumes something, so every list is finite.
-/

namespace BlockPlan.Yaml

/-- A regular pattern over code points. -/
inductive Pattern where
  /-- The empty text. -/
  | empty
  /-- One character of a class. -/
  | char (p : Nat → Bool)
  /-- One pattern after the other. -/
  | seq (a b : Pattern)
  /-- Either pattern. -/
  | alt (a b : Pattern)
  /-- Any number of repetitions. -/
  | star (a : Pattern)
  deriving Inhabited

/-- What may remain after repeating a step at most `n` times, each time consuming something. -/
def repeatRests (step : List Nat → List (List Nat)) : Nat → List Nat → List (List Nat)
  | 0, s => [s]
  | n + 1, s => s :: ((step s).filter (·.length < s.length)).flatMap (repeatRests step n)

namespace Pattern

/-- What may remain of a text after a prefix that the pattern matches. -/
def rests : Pattern → List Nat → List (List Nat)
  | .empty, s => [s]
  | .char _, [] => []
  | .char p, c :: r => if p c then [r] else []
  | .seq a b, s => (a.rests s).flatMap b.rests
  | .alt a b, s => a.rests s ++ b.rests s
  | .star a, s => repeatRests a.rests s.length s

def accepts (p : Pattern) (s : List Nat) : Bool := (p.rests s).any List.isEmpty

def opt (p : Pattern) : Pattern := .alt p .empty

def plus (p : Pattern) : Pattern := .seq p (.star p)

/-- Patterns one after the other. -/
def seqs : List Pattern → Pattern
  | [] => .empty
  | [p] => p
  | p :: ps => .seq p (seqs ps)

/-- Any of some patterns. -/
def alts : List Pattern → Pattern
  | [] => .char fun _ => false
  | [p] => p
  | p :: ps => .alt p (alts ps)

def anyOf (chars : String) : Pattern := .char fun c => chars.toList.any (·.toNat == c)

def range (lo hi : Char) : Pattern := .char fun c => lo.toNat ≤ c && c ≤ hi.toNat

def word (w : String) : Pattern := seqs (w.toList.map fun ch => .char (· == ch.toNat))

end Pattern

end BlockPlan.Yaml
