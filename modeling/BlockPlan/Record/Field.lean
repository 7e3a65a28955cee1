import BlockPlan.Value.Show
import BlockPlan.Text.Utf8

/-!
# Typed fields read from values

A record is read from a map of values field by field. Each field has a kind (text, truth value,
list, map, nested record) and a default for when it is absent. A value that does not fit its
kind gives an `Issue`: where it sits (a path of keys and indices) and what is wrong (a `Fault`).
Readers collect every issue instead of stopping at the first, in the order of the fields and
of the items, so a report lists them all.

Kinds are read leniently:

* text accepts text, and bytes that are UTF-8;
* a truth value accepts truth values, the numbers `0` and `1` (also as doubles), and the words
  `0 1 f t n y no yes off on false true` in any ASCII case;
* a list accepts lists, tuples, sets and frozen sets;
* a map accepts maps, its keys read as text.
-/

namespace BlockPlan

variable {α β : Type}

/-- A step on the path to a field: a key of a map or an index of a list. -/
inductive LocStep where
  | key (name : Text)
  | index (n : Int)
  deriving DecidableEq, Inhabited

/-- What is wrong with a field. -/
inductive Fault where
  | missing
  | stringType
  | stringUnicode
  | boolType
  | boolParsing
  | listType
  | dictType
  | modelType
  /-- A record met again inside itself. -/
  | recursionLoop
  deriving DecidableEq, Inhabited

/-- The code of a fault in reports. -/
def Fault.code : Fault → String
  | .missing => "missing"
  | .stringType => "string_type"
  | .stringUnicode => "string_unicode"
  | .boolType => "bool_type"
  | .boolParsing => "bool_parsing"
  | .listType => "list_type"
  | .dictType => "dict_type"
  | .modelType => "model_type"
  | .recursionLoop => "recursion_loop"

/-- A field that does not fit, and where it sits. -/
structure Issue where
  loc : List LocStep
  fault : Fault
  deriving Inhabited

/-- A read value, or every issue found. -/
abbrev Checked (α : Type) := Except (List Issue) α

/-- The first line of a report on the issues of a record of the given name. -/
def issuesHeadline (count : Nat) (record : String) : String :=
  let plural := if count = 1 then "" else "s"
  s!"{count} validation error{plural} for {record}"

namespace Checked

def fail (f : Fault) : Checked α := .error [⟨[], f⟩]

/-- Both reads, their issues together. -/
def and (a : Checked α) (b : Checked β) : Checked (α × β) :=
  match a, b with
  | .ok x, .ok y => .ok (x, y)
  | .ok _, .error e => .error e
  | .error e, .ok _ => .error e
  | .error e, .error f => .error (e ++ f)

/-- The issues of a read placed under one more step. -/
def under (step : LocStep) (a : Checked α) : Checked α :=
  match a with
  | .ok x => .ok x
  | .error issues => .error (issues.map fun i => ⟨step :: i.loc, i.fault⟩)

/-- Reads of list items, each one's issues under its index. -/
def items (reads : List (Checked α)) : Checked (List α) :=
  let indexed := reads.zipIdx.map fun (r, i) => under (.index i) r
  indexed.foldr (fun r acc => (and r acc).map fun (x, xs) => x :: xs) (.ok [])

end Checked

/-- The step that names a map key: text by itself (surrogates replaced), whole numbers and truth
values within 64 bits as indices, anything else by its text in messages. -/
def LocStep.ofKey : Value → LocStep
  | .str s => .key s.scrub
  | .bool b => .index (if b then 1 else 0)
  | .int n => if -Int.pow 2 63 ≤ n ∧ n < Int.pow 2 63 then .index n else .key (Value.int n).repr
  | v => .key v.repr

/-- The value of the field `name` of a map: the value under the text key `name`. -/
def fieldOf (entries : List (Value × Value)) (name : Text) : Option Value :=
  Value.lookupText entries name

/-- Reads text: text, or bytes that are UTF-8. -/
def readText : Value → Checked Text
  | .str s => .ok s
  | .bytes bs =>
    match decodeUtf8 bs with
    | .ok t => .ok t
    | .error _ => Checked.fail .stringUnicode
  | _ => Checked.fail .stringType

/-- The truth value a word stands for, the case of ASCII letters ignored. -/
def truthWord (t : Text) : Option Bool :=
  let w := t.asciiLower
  if w = Text.ofString "0" ∨ w = Text.ofString "f" ∨ w = Text.ofString "n" ∨
      w = Text.ofString "no" ∨ w = Text.ofString "off" ∨ w = Text.ofString "false" then some false
  else if w = Text.ofString "1" ∨ w = Text.ofString "t" ∨ w = Text.ofString "y" ∨
      w = Text.ofString "on" ∨ w = Text.ofString "yes" ∨ w = Text.ofString "true" then some true
  else none

/-- Whether a whole number fits in 64 bits with a sign. -/
def fitsWord (n : Int) : Bool := -Int.pow 2 63 ≤ n && n < Int.pow 2 63

/-- The whole number a double stands for, when it is finite, whole and within 64 bits. -/
def wholeFloat? (x : Float) : Option Int :=
  match Decimal.classify x.toBits with
  | .finite b =>
    let m : Int := if b.neg then -(b.mant : Int) else b.mant
    let n : Option Int :=
      if b.exp ≥ 0 then some (m * Int.pow 2 b.exp.toNat)
      else if m % Int.pow 2 (-b.exp).toNat = 0 then some (m / Int.pow 2 (-b.exp).toNat) else none
    n.filter fun n => -Int.pow 2 63 < n && n < Int.pow 2 63
  | _ => none

/-- The truth value of a whole number: `0` and `1` only. -/
def truthOfWhole (n : Int) : Checked Bool :=
  if n = 0 then .ok false else if n = 1 then .ok true else Checked.fail .boolParsing

/-- Reads a truth value; text must be UTF-8 to be read as a word. -/
def readBool : Value → Checked Bool
  | .bool b => .ok b
  | .str s =>
    if s.firstSurrogateRun.isSome then Checked.fail .stringUnicode
    else
      match truthWord s with
      | some b => .ok b
      | none => Checked.fail .boolParsing
  | .bytes bs =>
    match decodeUtf8 bs with
    | .ok t =>
      match truthWord t with
      | some b => .ok b
      | none => Checked.fail .boolParsing
    | .error _ => Checked.fail .boolParsing
  | .int n => if fitsWord n then truthOfWhole n else Checked.fail .boolType
  | .float x =>
    match wholeFloat? x with
    | some m => truthOfWhole m
    | none => Checked.fail .boolType
  | _ => Checked.fail .boolType

/-- The items of a value read as a list: lists, tuples, sets and frozen sets. -/
def listItems? (v : Value) : Option (List Value) :=
  match v.shape with
  | .list xs | .tuple xs | .set xs | .frozenset xs => some xs
  | _ => none

/-- Reads a list with a reader for its items. -/
def readList (item : Value → Checked α) (v : Value) : Checked (List α) :=
  match listItems? v with
  | some xs => Checked.items (xs.map item)
  | none => Checked.fail .listType

/-- Reads a map with text keys, the values as they are; a key that is not text is reported
under the key, followed by `[key]`. -/
def readTextMap (v : Value) : Checked (List (Text × Value)) :=
  match v.shape with
  | .map entries =>
    let keys := entries.map fun (k, v) =>
      ((readText k).under (.key "[key]")).under (LocStep.ofKey k) |>.map fun t => (t, v)
    keys.foldr (fun r acc => (Checked.and r acc).map fun (x, xs) => x :: xs) (.ok [])
  | _ => Checked.fail .dictType

def readOptText : Value → Checked (Option Text)
  | .null => .ok none
  | v => some <$> readText v

/-- Reads a field that may be absent: its reader under its name, or the default. -/
def optionalField (entries : List (Value × Value)) (name : Text) (read : Value → Checked α)
    (default : α) : Checked α :=
  match fieldOf entries name with
  | some v => (read v).under (.key name)
  | none => .ok default

/-- Reads a field that must be present. -/
def requiredField (entries : List (Value × Value)) (name : Text) (read : Value → Checked α) :
    Checked α :=
  match fieldOf entries name with
  | some v => (read v).under (.key name)
  | none => .error [⟨[.key name], .missing⟩]

end BlockPlan
