import BlockPlan.Text.Basic
import BlockPlan.Decimal.Shortest
import BlockPlan.Text.Numeral

/-!
# Attribute values

An attribute of a configuration block evaluates to a `Value`: null, a truth value, a whole or
floating number, text, bytes, a date, or a list, tuple, map, set or frozen set of values, or an
object of some other kind that no format can write. Maps keep their entries in insertion
order, and a key may be any value that is not itself a mutable container.

A container that holds itself, directly or deeper down, is a `knot`: its body, in which `back`
of the knot's number stands for the container again. A value is closed when each `back` lies
inside the knot it names; `Value.shape` opens the knot at the top of a closed value into the
container it stands for, whose members are closed again, so that readers look at one level at a
time.

`Value.eqv` is the equality the containers use: numbers compare by value across kinds
(`1`, `1.0` and `true` are one key), a not-a-number equals nothing, lists and tuples never
equal each other, maps and sets compare without regard to order, and no object equals anything.
`Value.mapOf` and `Value.distinct` build maps and sets under that equality: a later key takes
the place of an equal earlier one and keeps the earlier key, a later element equal to an earlier
one is dropped.
-/

namespace BlockPlan

/-- An evaluated attribute value. -/
inductive Value where
  | null
  | bool (b : Bool)
  | int (n : Int)
  | float (x : Float)
  | str (s : Text)
  | bytes (data : List UInt8)
  /-- A calendar date, by its ISO text `YYYY-MM-DD`. -/
  | date (iso : String)
  /-- A date with a time of day, by its ISO text. -/
  | stamp (iso : String)
  | list (items : List Value)
  | tuple (items : List Value)
  | map (entries : List (Value × Value))
  | set (items : List Value)
  | frozenset (items : List Value)
  /-- A value of another kind, by the name of its kind. -/
  | object (kind : String)
  /-- A container that holds itself: its body, in which `back id` stands for the container. -/
  | knot (id : Nat) (body : Value)
  /-- The container of the enclosing knot of this number. -/
  | back (id : Nat)
  deriving Inhabited

namespace Value

/-- The name of the value's kind, as messages spell it. -/
def typeName : Value → String
  | .null => "NoneType"
  | .bool _ => "bool"
  | .int _ => "int"
  | .float _ => "float"
  | .str _ => "str"
  | .bytes _ => "bytes"
  | .date _ => "date"
  | .stamp _ => "datetime"
  | .list _ => "list"
  | .tuple _ => "tuple"
  | .map _ => "dict"
  | .set _ => "set"
  | .frozenset _ => "frozenset"
  | .object k => k
  | .knot _ body => body.typeName
  | .back _ => "object"

/-- The name of the value's kind with its module, as attribute errors spell it: the date and
time kinds are named with their module, the others as `typeName` names them. -/
def qualifiedTypeName : Value → String
  | .date _ => "datetime.date"
  | .stamp _ => "datetime.datetime"
  | v => v.typeName

/-- A value can be a key or an element of a set unless it is a mutable container or holds one. -/
def hashable : Value → Bool
  | .list _ | .map _ | .set _ | .back _ => false
  | .tuple xs => xs.attach.all fun ⟨x, _⟩ => hashable x
  | .knot _ body => hashable body
  | _ => true
termination_by v => sizeOf v
decreasing_by
  all_goals simp_wf
  all_goals first
    | omega
    | (have h := List.sizeOf_lt_of_mem ‹_›; omega)

/-- Compares a whole number with a finite double exactly. -/
def intEqFloat (n : Int) (x : Float) : Bool :=
  match Decimal.classify x.toBits with
  | .finite b =>
    let m : Int := if b.neg then -(b.mant : Int) else b.mant
    if b.exp ≥ 0 then n = m * Int.pow 2 b.exp.toNat else n * Int.pow 2 (-b.exp).toNat = m
  | _ => false

/-- The number a truth value or whole number stands for. -/
def wholeOf? : Value → Option Int
  | .bool b => some (if b then 1 else 0)
  | .int n => some n
  | _ => none

def nan : Float := 0.0 / 0.0

/-- Value equality of the containers: numbers across kinds, containers by their contents. -/
def eqv (a b : Value) : Bool :=
  match a, b with
  | .null, .null => true
  | .str s, .str t => s == t
  | .bytes x, .bytes y => x == y
  | .date x, .date y => x == y
  | .stamp x, .stamp y => x == y
  | .float x, .float y => x == y
  | .float x, .int n => intEqFloat n x
  | .float x, .bool c => intEqFloat (if c then 1 else 0) x
  | .int n, .float x => intEqFloat n x
  | .bool c, .float x => intEqFloat (if c then 1 else 0) x
  | .int n, .int m => n == m
  | .int n, .bool c => n == (if c then 1 else 0)
  | .bool c, .int n => n == (if c then 1 else 0)
  | .bool c, .bool d => c == d
  | .list xs, .list ys =>
    xs.length == ys.length && (xs.attach.zip ys).all fun (⟨x, _⟩, y) => eqv x y
  | .tuple xs, .tuple ys =>
    xs.length == ys.length && (xs.attach.zip ys).all fun (⟨x, _⟩, y) => eqv x y
  | .map xs, .map ys =>
    xs.length == ys.length && xs.attach.all fun ⟨(k, v), _⟩ =>
      ys.any fun (k', v') => eqv k k' && eqv v v'
  | .set xs, .set ys | .set xs, .frozenset ys | .frozenset xs, .set ys
  | .frozenset xs, .frozenset ys =>
    xs.length == ys.length && xs.attach.all fun ⟨x, _⟩ => ys.any fun y => eqv x y
  | .knot i _, .knot j _ => i == j
  | _, _ => false
termination_by sizeOf a
decreasing_by
  all_goals simp_wf
  all_goals
    first
    | omega
    | have h := List.sizeOf_lt_of_mem ‹_›
      (try simp only [Prod.mk.sizeOf_spec] at h)
      omega

/-- Puts `v` under key `k`: in place of the value of an equal key, which stays, or at the end. -/
def insertEntry (entries : List (Value × Value)) (k v : Value) : List (Value × Value) :=
  if entries.any (fun (k', _) => eqv k k') then
    entries.map fun (k', v') => if eqv k k' then (k', v) else (k', v')
  else entries ++ [(k, v)]

/-- The map built by inserting the pairs in order. -/
def mapOf (pairs : List (Value × Value)) : List (Value × Value) :=
  pairs.foldl (fun m (k, v) => insertEntry m k v) []

/-- The elements in order, each dropped when an equal one came before. -/
def distinct (xs : List Value) : List Value :=
  xs.foldl (fun acc x => if acc.any (eqv x) then acc else acc ++ [x]) []

/-- The value under a text key, if the map has one. -/
def lookupText (entries : List (Value × Value)) (key : Text) : Option Value :=
  (entries.find? fun (k, _) => eqv k (.str key)).map Prod.snd

/-- The value with `r` in place of each `back id`. -/
def subst (id : Nat) (r : Value) : Value → Value
  | .back j => if j == id then r else .back j
  | .knot j body => .knot j (subst id r body)
  | .list xs => .list (xs.attach.map fun ⟨x, _⟩ => subst id r x)
  | .tuple xs => .tuple (xs.attach.map fun ⟨x, _⟩ => subst id r x)
  | .set xs => .set (xs.attach.map fun ⟨x, _⟩ => subst id r x)
  | .frozenset xs => .frozenset (xs.attach.map fun ⟨x, _⟩ => subst id r x)
  | .map kvs => .map (kvs.attach.map fun ⟨(k, v), _⟩ => (subst id r k, subst id r v))
  | v => v
termination_by v => sizeOf v
decreasing_by
  all_goals simp_wf
  all_goals
    first
    | omega
    | have h := List.sizeOf_lt_of_mem ‹_›
      (try simp only [Prod.mk.sizeOf_spec] at h)
      omega

/-- Whether a whole number too long to be written out stands in the value. -/
def holdsLongWhole : Value → Bool
  | .int n => Numeral.exceedsDigitLimit n
  | .knot _ body => holdsLongWhole body
  | .list xs => xs.attach.any fun ⟨x, _⟩ => holdsLongWhole x
  | .tuple xs => xs.attach.any fun ⟨x, _⟩ => holdsLongWhole x
  | .set xs => xs.attach.any fun ⟨x, _⟩ => holdsLongWhole x
  | .frozenset xs => xs.attach.any fun ⟨x, _⟩ => holdsLongWhole x
  | .map kvs => kvs.attach.any fun ⟨(k, v), _⟩ => holdsLongWhole k || holdsLongWhole v
  | _ => false
termination_by v => sizeOf v
decreasing_by
  all_goals simp_wf
  all_goals
    first
    | omega
    | have h := List.sizeOf_lt_of_mem ‹_›
      (try simp only [Prod.mk.sizeOf_spec] at h)
      omega

/-- The value a closed value stands for at its top: a knot is opened into its body, in which the
container stands again for each `back` to it. -/
def shape : Value → Value
  | .knot id body => subst id (.knot id body) body
  | v => v

end Value

end BlockPlan
