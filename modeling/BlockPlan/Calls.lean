/-!
# Nested calls

The readers of documents run as nested calls on a host that allows at most `callLimit` of them
at once; a call that would nest deeper fails, and the reading with it. A routine of a reader is
one call. Making an object is two: the host's generic call, then the object's initializer one
deeper.

A stretch of work is described by its `Reach`: for each depth below the call it starts with,
the kind of the first call that gets there. That is all that decides whether the work fails
when it starts at a given depth, and at which call (`Reach.overflow`): calls nest, so the
first call deeper than the limit is the first to reach depth `callLimit + 1`. Work done one
stretch after another merges with `Reach.andThen`, which keeps the first call at each depth;
a call whose body is some work is `Reach.call`.
-/

namespace BlockPlan

/-- How a call is entered. -/
inductive CallKind where
  /-- A routine of the reader. -/
  | routine
  /-- The host's generic call, which makes an object. -/
  | object
  deriving DecidableEq, Inhabited

def callLimit : Nat := 1000

/-- The message of a call that would nest deeper than `callLimit`. -/
def CallKind.overflowMessage : CallKind → String
  | .routine => "maximum recursion depth exceeded"
  | .object => "maximum recursion depth exceeded while calling a Python object"

/-- A stretch of work: the `i`-th entry is the kind of the first call that stands `i` calls
below the first call of the work. -/
abbrev Reach := List CallKind

namespace Reach

/-- Work `a`, then work `b` started at the same depth: `b` is first only at the depths that
`a` did not reach. -/
def andThen (a b : Reach) : Reach := a ++ b.drop a.length

/-- Work `a`, then work `b` started `k` calls below the first call of `a`; the calls of `a`
reach at least that deep. -/
def andThenAt (a : Reach) (k : Nat) (b : Reach) : Reach := a ++ b.drop (a.length - k)

/-- Stretches of work done one after another at the same depth. -/
def chain (parts : List Reach) : Reach := parts.foldl andThen []

/-- A call of kind `k` whose body does the given stretches of work in order, one call deeper. -/
def call (k : CallKind) (body : List Reach) : Reach := k :: chain body

def leaf : Reach := [.routine]

def routine (body : List Reach) : Reach := call .routine body

/-- Making an object: the host's generic call, then the initializer. -/
def object : Reach := [.object, .routine]

/-- The first call of the work that nests deeper than `callLimit`, when the first call of the
work stands at depth `depth`. -/
def overflow (depth : Nat) (r : Reach) : Option CallKind :=
  if callLimit + 1 < depth + r.length then r[callLimit + 1 - depth]? else none

theorem andThen_length (a b : Reach) : (a.andThen b).length = max a.length b.length := by
  simp only [andThen, List.length_append, List.length_drop]
  omega

theorem andThen_nil (a : Reach) : a.andThen [] = a := by
  simp [andThen]

theorem overflow_none_of_le (depth : Nat) (r : Reach) (h : depth + r.length ≤ callLimit + 1) :
    overflow depth r = none := by
  simp only [overflow]
  rw [if_neg (by omega)]

end Reach

end BlockPlan
