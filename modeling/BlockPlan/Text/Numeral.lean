import BlockPlan.Text.Unicode
import BlockPlan.Decimal.Nearest

/-!
# Numbers in text

`readWhole base cs` and `readDouble cs` read numbers the way the runtime reads them from text.

Both first take the text to ASCII (`asciiForm`): white space above ASCII becomes a blank, a
decimal digit of any script becomes the ASCII digit of the same value, and the first other
character above ASCII ends the text as `?`, which no number accepts. Blanks around the number
are skipped, and an underscore may stand between two digits.

`readWhole` takes a sign, then, in bases 2, 8 and 16, an optional `0b`, `0o` or `0x` prefix
(in either case) that may be followed by one underscore, then digits of the base. Text with
more than 4300 digits in a base that is not a power of two is refused whatever follows, with the
number of digits (`WholeFault.tooManyDigits`).

`readDouble` takes a sign, then digits with an optional point and an optional exponent, or
`inf`, `infinity` or `nan` in any case; the value is the double nearest the decimal number.
-/

namespace BlockPlan

namespace Numeral

/-- The white space that number text may have around it: tab, line feed, vertical tab, form
feed, carriage return and blank. -/
def isAsciiSpace (c : Nat) : Bool := c == 0x20 || (0x09 ≤ c && c ≤ 0x0D)

def decimalValue (c : Nat) : Option Nat :=
  (Unicode.decimalZeros.find? fun z => z ≤ c && c < z + 10).map (c - ·)

/-- Number text as its readers see it: ASCII as it is, other white space as a blank and other
decimal digits as ASCII digits; the first other character ends the text as `?`. -/
def asciiForm : List Nat → List Nat
  | [] => []
  | c :: rest =>
    if c < 0x80 then c :: asciiForm rest
    else if Unicode.spaceAbove.contains c then 0x20 :: asciiForm rest
    else
      match decimalValue c with
      | some d => (0x30 + d) :: asciiForm rest
      | none => [0x3F]

/-- The value of a character as a digit in bases up to 36; 37 for any other character. -/
def digitValue (c : Nat) : Nat :=
  if 0x30 ≤ c && c ≤ 0x39 then c - 0x30
  else if 0x61 ≤ c && c ≤ 0x7A then c - 0x61 + 10
  else if 0x41 ≤ c && c ≤ 0x5A then c - 0x41 + 10
  else 37

def sign : List Nat → Bool × List Nat
  | c :: rest => if c == 0x2D then (true, rest) else if c == 0x2B then (false, rest) else (false, c :: rest)
  | [] => (false, [])

/-- The prefix letter of a base, in lower case: `b`, `o` or `x`. -/
def prefixLetter (base : Nat) : Option Nat :=
  if base == 2 then some 0x62 else if base == 8 then some 0x6F else if base == 16 then some 0x78
  else none

/-- Text after the prefix of its base, if it has one, and one underscore after the prefix. -/
def dropPrefix (base : Nat) (cs : List Nat) : List Nat :=
  match cs, prefixLetter base with
  | 0x30 :: l :: rest, some p =>
    if l == p || l == p - 32 then
      match rest with
      | 0x5F :: more => more
      | _ => rest
    else cs
  | _, _ => cs

/-- The digits of a base at the front of text, with single underscores between them: the
digits, or nothing when an underscore stands first, last or next to another. -/
def digitRun (base : Nat) (cs : List Nat) : Option (List Nat × List Nat) :=
  let run := cs.takeWhile fun c => digitValue c < base || c == 0x5F
  let rest := cs.drop run.length
  let ok := run.head? != some 0x5F && run.getLast? != some 0x5F &&
    !(run.zip (run.drop 1)).any fun (a, b) => a == 0x5F && b == 0x5F
  if ok then some (run.filter (· != 0x5F), rest) else none

/-- Why text is not a whole number: it is not one, or it has too many digits. -/
inductive WholeFault where
  | invalid
  | tooManyDigits (digits : Nat)
  deriving Inhabited, DecidableEq

/-- The most digits a whole number in a base that is not a power of two may be read from. -/
def digitLimit : Nat := 4300

/-- The message of a whole number with more than `digitLimit` decimal digits, which is not
written out. -/
def digitLimitMessage : String :=
  s!"Exceeds the limit ({digitLimit} digits) for integer string conversion; use sys.set_int_max_str_digits() to increase the limit"

/-- The least whole number with more than `digitLimit` decimal digits. -/
def firstTooLong : Nat := Nat.pow 10 digitLimit

/-- Whether a whole number has more than `digitLimit` decimal digits. -/
def exceedsDigitLimit (n : Int) : Bool := n.natAbs ≥ firstTooLong

def isBinaryBase (base : Nat) : Bool := base == 2 || base == 4 || base == 8 || base == 16 || base == 32

/-- Reads a whole number in a base from 2 to 36. -/
def readWhole (base : Nat) (cs : List Nat) : Except WholeFault Int := do
  let s := (asciiForm cs).dropWhile isAsciiSpace
  let (neg, s) := sign s
  let s := dropPrefix base s
  if s.head? == some 0x5F then throw .invalid
  let some (ds, rest) := digitRun base s | throw .invalid
  if !isBinaryBase base && ds.length > digitLimit then throw (.tooManyDigits ds.length)
  if ds.isEmpty then throw .invalid
  if !(rest.all isAsciiSpace) then throw .invalid
  let n : Nat := ds.foldl (fun acc d => acc * base + digitValue d) 0
  pure (if neg then -(n : Int) else n)

/-- Removes the underscores of number text, each of which must stand between two digits. -/
def dropUnderscores (cs : List Nat) : Option (List Nat) :=
  let isDigit := fun (c : Nat) => 0x30 ≤ c && c ≤ 0x39
  let pairs := (none :: cs.map some).zip (cs.map some ++ [none])
  let bad := pairs.any fun (before, c) =>
    c == some 0x5F && !((before.map isDigit).getD false)
  let badAfter := (cs.zip ((cs.drop 1).map some ++ [none])).any fun (c, after) =>
    c == 0x5F && !((after.map isDigit).getD false)
  if bad || badAfter then none else some (cs.filter (· != 0x5F))

def startsWithWord (cs : List Nat) (word : String) : Bool :=
  let w := word.toList.map Char.toNat
  (cs.take w.length).map (fun c => if 0x41 ≤ c && c ≤ 0x5A then c + 32 else c) == w

/-- The decimal number at the front of text: sign, digits with an optional point, at least one
digit, and an exponent when digits follow its letter; the number as sign, digits and power of
ten, and the rest of the text. -/
def decimalPrefix (cs : List Nat) : Option ((Bool × Nat × Int) × List Nat) :=
  let isDigit := fun (c : Nat) => 0x30 ≤ c && c ≤ 0x39
  let (neg, s) := sign cs
  let whole := s.takeWhile isDigit
  let s := s.drop whole.length
  let (frac, s) := match s with
    | 0x2E :: r => (r.takeWhile isDigit, r.drop (r.takeWhile isDigit).length)
    | _ => ([], s)
  if whole.isEmpty && frac.isEmpty then none
  else
    let (expo, s) : Int × List Nat :=
      match s with
      | e :: r =>
        if e == 0x65 || e == 0x45 then
          let (eneg, r2) := sign r
          let ds := r2.takeWhile isDigit
          if ds.isEmpty then (0, s)
          else
            let v : Int := (ds.foldl (fun acc d => acc * 10 + (d - 0x30)) 0 : Nat)
            (if eneg then -v else v, r2.drop ds.length)
        else (0, s)
      | [] => (0, s)
    let mant := (whole ++ frac).foldl (fun acc d => acc * 10 + (d - 0x30)) 0
    some ((neg, mant, expo - frac.length), s)

/-- Reads a double from text. -/
def readDouble (cs : List Nat) : Option Float := do
  let s := asciiForm cs
  let s ← if s.contains 0x5F then dropUnderscores s else some s
  let s := s.dropWhile isAsciiSpace
  if s.isEmpty then none
  let s := (s.reverse.dropWhile isAsciiSpace).reverse
  match decimalPrefix s with
  | some ((neg, mant, e), []) => some (Decimal.nearestDouble neg mant e)
  | some _ => none
  | none =>
    let (neg, body) := sign s
    let infinity : Float := if neg then -(1.0 / 0.0) else 1.0 / 0.0
    if startsWithWord body "infinity" && body.length == 8 then some infinity
    else if startsWithWord body "inf" && body.length == 3 then some infinity
    else if startsWithWord body "nan" && body.length == 3 then some (Float.ofBits 0x7FF8000000000000)
    else none

end Numeral

end BlockPlan
