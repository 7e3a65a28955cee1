import BlockPlan.Value.Basic
import BlockPlan.Decimal.Nearest
import BlockPlan.Text.Numeral

/-!
# Reading JSON text

`readJson` reads one JSON value, with blanks (space, tab, line feed, carriage return) around
it, into a `Value`: objects become maps with text keys, a later member of one key overwriting
the earlier one in its place; numbers without a fraction or exponent become whole numbers of
any size, the others the nearest double; `NaN`, `Infinity` and `-Infinity` are read too.

Escapes in strings follow JSON; a `\u` escape of a high surrogate directly followed by one of a
low surrogate is one code point, and any other surrogate escape stays a surrogate. A control
character below `0x20` inside a string is refused.

A failure of malformed text names its reason and the code-point position where it was found; its
message adds the line and column (`malformedMessage`). A whole number of more than 4300 digits and
containers nested deeper than the reader is given room for are refused as well.
-/

namespace BlockPlan

/-- Why JSON text cannot be read: text that is not JSON, with the reason and the code-point
position where it was found; a whole number of more digits than numbers are read from; or
containers nested deeper than the reader goes, an object or an array. -/
inductive JsonFault where
  | malformed (reason : String) (pos : Nat)
  | tooManyDigits (digits : Nat)
  | tooDeep (object : Bool)
  deriving Inhabited

/-- The message of a failure of malformed text: the reason, then line, column and position. -/
def malformedMessage (reason : String) (pos : Nat) (src : List Nat) : String :=
  let before := src.take pos
  let line := before.count 10 + 1
  let col := pos - (before.length - (before.reverse.takeWhile (· != 10)).length) + 1
  s!"{reason}: line {line} column {col} (char {pos})"

namespace JsonRead

def isBlank (c : Nat) : Bool := c = 0x20 || c = 0x09 || c = 0x0A || c = 0x0D

/-- The position of the first non-blank at or after `i`. -/
def skipBlanks (s : Array Nat) (i : Nat) : Nat :=
  if h : i < s.size then
    if isBlank s[i] then skipBlanks s (i + 1) else i
  else i
termination_by s.size - i

/-- The code point at a position, or none past the end. -/
def at? (s : Array Nat) (i : Nat) : Option Nat := s[i]?

/-- Whether the code points from `i` spell `word`. -/
def spells (s : Array Nat) (i : Nat) (word : String) : Bool :=
  (word.toList.zipIdx.all fun (c, k) => at? s (i + k) == some c.toNat)

/-- The value of a hexadecimal digit. -/
def hexValue (c : Nat) : Option Nat :=
  if 0x30 ≤ c && c ≤ 0x39 then some (c - 0x30)
  else if 0x61 ≤ c && c ≤ 0x66 then some (c - 0x61 + 10)
  else if 0x41 ≤ c && c ≤ 0x46 then some (c - 0x41 + 10)
  else none

/-- The value of four hexadecimal digits from `i`. -/
def hex4 (s : Array Nat) (i : Nat) : Option Nat :=
  (List.range 4).foldlM (fun acc k => do
    let c ← at? s (i + k)
    let d ← hexValue c
    pure (acc * 16 + d)) 0

/-- The code point of a one-letter escape. -/
def simpleEscape (c : Nat) : Option Nat :=
  if c = 0x22 then some 0x22 else if c = 0x5C then some 0x5C else if c = 0x2F then some 0x2F
  else if c = 0x62 then some 0x08 else if c = 0x66 then some 0x0C else if c = 0x6E then some 0x0A
  else if c = 0x72 then some 0x0D else if c = 0x74 then some 0x09 else none

/-- Reads the rest of a string whose opening quote is at `start`, from `i`; the code points read
so far are `acc`, reversed. Gives the text and the position after the closing quote. -/
def scanString (s : Array Nat) (start : Nat) (i : Nat) (acc : List Nat) :
    Except JsonFault (Text × Nat) :=
  if h : i < s.size then
    let c := s[i]
    if c = 0x22 then .ok (⟨acc.reverse⟩, i + 1)
    else if c = 0x5C then
      match at? s (i + 1) with
      | none => .error (.malformed "Unterminated string starting at" start)
      | some 0x75 =>
        -- four hex digits must be followed by at least one more code point
        if i + 6 ≥ s.size then .error (.malformed "Invalid \\uXXXX escape" (i + 1))
        else
          match hex4 s (i + 2) with
          | none => .error (.malformed "Invalid \\uXXXX escape" (i + 1))
          | some u =>
            if isHighSurrogate u && i + 12 < s.size && at? s (i + 6) == some 0x5C &&
                at? s (i + 7) == some 0x75 then
              match hex4 s (i + 8) with
              | none => .error (.malformed "Invalid \\uXXXX escape" (i + 7))
              | some l =>
                if isLowSurrogate l then
                  scanString s start (i + 12)
                    ((0x10000 + (u - 0xD800) * 0x400 + (l - 0xDC00)) :: acc)
                else scanString s start (i + 6) (u :: acc)
            else scanString s start (i + 6) (u :: acc)
      | some e =>
        match simpleEscape e with
        | some v => scanString s start (i + 2) (v :: acc)
        | none => .error (.malformed "Invalid \\escape" i)
    else if c < 0x20 then .error (.malformed "Invalid control character at" i)
    else scanString s start (i + 1) (c :: acc)
  else .error (.malformed "Unterminated string starting at" start)
termination_by s.size - i

def isDigit (c : Nat) : Bool := 0x30 ≤ c && c ≤ 0x39

/-- The position after the digits from `i`. -/
def skipDigits (s : Array Nat) (i : Nat) : Nat :=
  if h : i < s.size then
    if isDigit s[i] then skipDigits s (i + 1) else i
  else i
termination_by s.size - i

/-- The decimal value of the digits from `i` to `j`. -/
def digitsValue (s : Array Nat) (i j : Nat) : Nat :=
  ((List.range (j - i)).map fun k => (s[i + k]?.getD 0x30) - 0x30).foldl (fun a d => a * 10 + d) 0

/-- The position after the whole part of a number at `i`: a `0` alone, or digits not starting
with `0`; none when no digit stands there. -/
def wholeEnd (s : Array Nat) (i : Nat) : Option Nat :=
  match at? s i with
  | some 0x30 => some (i + 1)
  | some c => if isDigit c then some (skipDigits s (i + 1)) else none
  | none => none

/-- The position after the fraction at `j`, and whether there is one: a point followed by at
least one digit. -/
def fractionEnd (s : Array Nat) (j : Nat) : Nat × Bool :=
  if at? s j == some 0x2E && (at? s (j + 1)).any isDigit then (skipDigits s (j + 2), true)
  else (j, false)

/-- The exponent at `j`: the position after it, whether it is negative, and where its digits
stand; an `e` without digits is not part of the number. -/
def exponentPart (s : Array Nat) (j : Nat) : Nat × Bool × Option (Nat × Nat) :=
  if at? s j == some 0x65 || at? s j == some 0x45 then
    let k := j + 1
    let (negExp, k) :=
      if at? s k == some 0x2D then (true, k + 1)
      else if at? s k == some 0x2B then (false, k + 1) else (false, k)
    let e := skipDigits s k
    if e > k then (e, negExp, some (k, e)) else (j, false, none)
  else (j, false, none)

/-- Reads a number at `start`: an optional minus, an integer part without leading zeros, an
optional fraction with at least one digit, and an optional exponent with at least one digit
(an `e` without digits is not part of the number). -/
def scanNumber (s : Array Nat) (start : Nat) : Except JsonFault (Value × Nat) :=
  let neg := at? s start == some 0x2D
  let i := if neg then start + 1 else start
  match wholeEnd s i with
  | none => .error (.malformed "Expecting value" start)
  | some j =>
    let (fracEnd, hasFrac) := fractionEnd s j
    let (expEnd, expSign, expDigits) := exponentPart s fracEnd
    let whole := digitsValue s i j
    if !hasFrac && expDigits.isNone then
      if j - i > Numeral.digitLimit then .error (.tooManyDigits (j - i))
      else .ok (.int (if neg then -(whole : Int) else whole), expEnd)
    else
      let fracDigits := if hasFrac then fracEnd - (j + 1) else 0
      let mant := whole * Nat.pow 10 fracDigits + (if hasFrac then digitsValue s (j + 1) fracEnd else 0)
      let e : Int := match expDigits with
        | some (a, b) => let v : Int := digitsValue s a b; if expSign then -v else v
        | none => 0
      .ok (.float (Decimal.nearestDouble neg mant (e - fracDigits)), expEnd)

/-- A value that is a named constant or a number. -/
def scanScalar (s : Array Nat) (i : Nat) : Except JsonFault (Value × Nat) :=
  match at? s i with
  | some 0x6E => if spells s i "null" then .ok (.null, i + 4) else .error (.malformed "Expecting value" i)
  | some 0x74 => if spells s i "true" then .ok (.bool true, i + 4) else .error (.malformed "Expecting value" i)
  | some 0x66 =>
    if spells s i "false" then .ok (.bool false, i + 5) else .error (.malformed "Expecting value" i)
  | some 0x4E =>
    if spells s i "NaN" then .ok (.float Value.nan, i + 3) else .error (.malformed "Expecting value" i)
  | some 0x49 =>
    if spells s i "Infinity" then .ok (.float (1.0 / 0.0), i + 8)
    else .error (.malformed "Expecting value" i)
  | some 0x2D =>
    if spells s i "-Infinity" then .ok (.float (-1.0 / 0.0), i + 9) else scanNumber s i
  | _ => scanNumber s i

mutual

/-- Reads a value at `i` inside `depth` containers, where `room` containers fit; `fuel` bounds
the depth of the reading. -/
def scanValue (s : Array Nat) (room : Nat) : Nat → Nat → Nat → Except JsonFault (Value × Nat)
  | 0, _, i => .error (.malformed "Expecting value" i)
  | fuel + 1, depth, i =>
    match at? s i with
    | some 0x22 => (fun (t, j) => (Value.str t, j)) <$> scanString s i (i + 1) []
    | some 0x7B =>
      if depth ≥ room then .error (.tooDeep true)
      else
        let j := skipBlanks s (i + 1)
        if at? s j == some 0x7D then .ok (.map [], j + 1) else scanMembers s room fuel (depth + 1) j []
    | some 0x5B =>
      if depth ≥ room then .error (.tooDeep false)
      else
        let j := skipBlanks s (i + 1)
        if at? s j == some 0x5D then .ok (.list [], j + 1) else scanItems s room fuel (depth + 1) j []
    | _ => scanScalar s i

/-- Reads object members from `i` (after `{` or `,` and blanks); `acc` holds those read. -/
def scanMembers (s : Array Nat) (room : Nat) : Nat → Nat → Nat → List (Text × Value) →
    Except JsonFault (Value × Nat)
  | 0, _, i, _ => .error (.malformed "Expecting value" i)
  | fuel + 1, depth, i, acc =>
    if at? s i != some 0x22 then
      .error (.malformed "Expecting property name enclosed in double quotes" i)
    else do
      let (key, j) ← scanString s i (i + 1) []
      let j := skipBlanks s j
      if at? s j != some 0x3A then throw (.malformed "Expecting ':' delimiter" j)
      let (v, k) ← scanValue s room fuel depth (skipBlanks s (j + 1))
      let acc := putEntry acc key v
      let k := skipBlanks s k
      if at? s k == some 0x7D then
        pure (.map (acc.map fun (key, v) => (Value.str key, v)), k + 1)
      else if at? s k == some 0x2C then scanMembers s room fuel depth (skipBlanks s (k + 1)) acc
      else throw (.malformed "Expecting ',' delimiter" k)

/-- Reads array items from `i` (after `[` or `,` and blanks); `acc` holds those read, reversed. -/
def scanItems (s : Array Nat) (room : Nat) : Nat → Nat → Nat → List Value →
    Except JsonFault (Value × Nat)
  | 0, _, i, _ => .error (.malformed "Expecting value" i)
  | fuel + 1, depth, i, acc => do
    let (v, k) ← scanValue s room fuel depth i
    let k := skipBlanks s k
    if at? s k == some 0x5D then pure (.list (v :: acc).reverse, k + 1)
    else if at? s k == some 0x2C then scanItems s room fuel depth (skipBlanks s (k + 1)) (v :: acc)
    else throw (.malformed "Expecting ',' delimiter" k)

end

end JsonRead

/-- Reads a JSON document: one value with blanks around it, where at most `room` containers
may be nested. A byte-order mark at the start is refused. -/
def readJson (src : Text) (room : Nat) : Except JsonFault Value := do
  let s := src.points.toArray
  if s[0]? == some 0xFEFF then throw (.malformed "Unexpected UTF-8 BOM (decode using utf-8-sig)" 0)
  let i := JsonRead.skipBlanks s 0
  let (v, j) ← JsonRead.scanValue s room (2 * s.size + 2) 0 i
  let j := JsonRead.skipBlanks s j
  if j ≠ s.size then throw (.malformed "Extra data" j)
  pure v

end BlockPlan
