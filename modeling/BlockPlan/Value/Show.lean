import BlockPlan.Value.Basic
import BlockPlan.Text.Utf8
import BlockPlan.Text.Unicode

/-!
# Values as text in messages

`Value.repr` is the text a message gives a value: `None`, `True`, numbers by their shortest
digits, text in single quotes (double quotes when it holds a single quote and no double one)
with the unprintable code points escaped, `b'…'` for bytes, and brackets for containers, a
tuple of one item with a trailing comma, an empty set as `set()`. `Value.display` differs only for
text, which stands as it is, and for dates and times, which stand as their ISO text.
-/

namespace BlockPlan

/-- Whether a code point prints as itself inside quoted text: printable ASCII and the code
points above it that are neither controls, format characters, separators, surrogates, private
use nor unassigned. -/
def isPrintablePoint (c : Nat) : Bool := Unicode.isPrintable c

/-- The quote character for text: a double quote when the text holds a single quote and no
double quote, else a single quote. -/
def quoteFor (cs : List Nat) : Nat :=
  if cs.contains 0x27 && !cs.contains 0x22 then 0x22 else 0x27

/-- One code point inside quoted text. -/
def reprPoint (q : Nat) (c : Nat) : String :=
  if c = q then "\\" ++ String.singleton (Char.ofNat c)
  else if c = 0x5C then "\\\\"
  else if c = 0x09 then "\\t"
  else if c = 0x0A then "\\n"
  else if c = 0x0D then "\\r"
  else if isPrintablePoint c then String.singleton (Char.ofNat c)
  else escapeForMessage c

/-- Text in quotes with its unprintable code points escaped. -/
def reprText (t : Text) : String :=
  let q := quoteFor t.points
  let qs := String.singleton (Char.ofNat q)
  qs ++ String.join (t.points.map (reprPoint q)) ++ qs

/-- Bytes as `b'…'`, printable ASCII as itself and the rest as `\xhh`. -/
def reprBytes (bs : List UInt8) : String :=
  let cs := bs.map UInt8.toNat
  let q := quoteFor cs
  let qs := String.singleton (Char.ofNat q)
  let one (c : Nat) : String :=
    if c = q then "\\" ++ String.singleton (Char.ofNat c)
    else if c = 0x5C then "\\\\"
    else if c = 0x09 then "\\t"
    else if c = 0x0A then "\\n"
    else if c = 0x0D then "\\r"
    else if 0x20 ≤ c && c < 0x7F then String.singleton (Char.ofNat c)
    else "\\x" ++ hexDigits 2 c
  "b" ++ qs ++ String.join (cs.map one) ++ qs

def intRepr (n : Int) : String :=
  if n < 0 then "-" ++ Decimal.natText n.natAbs else Decimal.natText n.toNat

/-- The numbers of an ISO date `YYYY-MM-DD`, without leading zeros. -/
def dateFields (iso : String) : String :=
  ", ".intercalate ((iso.splitOn "-").map fun part =>
    match part.toNat? with
    | some n => Decimal.natText n
    | none => part)

/-- The offset of a fixed time zone as its constructor shows it: `datetime.timezone.utc` for no
offset, else the offset as days and seconds, a negative offset being a day back and the seconds
forward from it. -/
def zoneRepr (negative : Bool) (seconds : Nat) : String :=
  if seconds = 0 then "datetime.timezone.utc"
  else
    let parts := if negative then ["days=-1", "seconds=" ++ Decimal.natText (86400 - seconds)]
      else ["seconds=" ++ Decimal.natText seconds]
    "datetime.timezone(datetime.timedelta(" ++ ", ".intercalate parts ++ "))"

/-- The fields of an ISO date and time `YYYY-MM-DDTHH:MM:SS[.ffffff][±HH:MM]` as its constructor
shows them: year to minute always, the seconds when they or the microseconds are not zero, the
microseconds when they are not zero, and then the time zone of an offset. -/
def stampFields (iso : String) : String :=
  let cs := iso.toList
  let num (start len : Nat) : Nat :=
    ((cs.drop start).take len).foldl (fun n c => 10 * n + (c.toNat - 48)) 0
  let rest := cs.drop 19
  let (micro, zone) := match rest with
    | '.' :: more => (num 20 6, more.drop 6)
    | _ => (0, rest)
  let sec := num 17 2
  let clock := if micro ≠ 0 then [sec, micro] else if sec ≠ 0 then [sec] else []
  let fields := ", ".intercalate
    (([num 0 4, num 5 2, num 8 2, num 11 2, num 14 2] ++ clock).map Decimal.natText)
  match zone with
  | sign :: _ =>
    let at0 := cs.length - zone.length
    let seconds := (num (at0 + 1) 2 * 60 + num (at0 + 4) 2) * 60
    fields ++ ", tzinfo=" ++ zoneRepr (sign == '-') seconds
  | [] => fields

namespace Value

/-- How a container is written where it stands again inside itself. -/
def cycleRepr : Value → String
  | .map _ => "\x7b...\x7d"
  | .set _ => "set(...)"
  | _ => "[...]"

mutual

/-- The text of a value in a message; `seen` gives the text of each knot around it. -/
def reprIn (seen : List (Nat × String)) : Value → String
  | .null => "None"
  | .bool b => if b then "True" else "False"
  | .int n => intRepr n
  | .float x => Decimal.Layout.repr.render x
  | .str s => reprText s
  | .bytes bs => reprBytes bs
  | .date iso => "datetime.date(" ++ dateFields iso ++ ")"
  | .stamp iso => "datetime.datetime(" ++ stampFields iso ++ ")"
  | .list xs => "[" ++ ", ".intercalate (reprAll seen xs) ++ "]"
  | .tuple [x] => "(" ++ reprIn seen x ++ ",)"
  | .tuple xs => "(" ++ ", ".intercalate (reprAll seen xs) ++ ")"
  | .map kvs => "\x7b" ++ ", ".intercalate (reprEntries seen kvs) ++ "\x7d"
  | .set [] => "set()"
  | .set xs => "\x7b" ++ ", ".intercalate (reprAll seen xs) ++ "\x7d"
  | .frozenset [] => "frozenset()"
  | .frozenset xs => "frozenset(\x7b" ++ ", ".intercalate (reprAll seen xs) ++ "\x7d)"
  | .object k => "<" ++ k ++ " object>"
  | .knot id body => reprIn ((id, cycleRepr body) :: seen) body
  | .back id => (seen.lookup id).getD "[...]"

def reprAll (seen : List (Nat × String)) : List Value → List String
  | [] => []
  | x :: xs => reprIn seen x :: reprAll seen xs

def reprEntries (seen : List (Nat × String)) : List (Value × Value) → List String
  | [] => []
  | (k, v) :: rest => (reprIn seen k ++ ": " ++ reprIn seen v) :: reprEntries seen rest

end

/-- The text of a value in a message: a container written again inside itself is `[...]`, or
`\x7b...\x7d` for a map. -/
def repr (v : Value) : String := reprIn [] v

/-- The text a value stands for: text as it is, a date as its ISO text, a date and time as its
ISO text with a blank between date and time, the rest by `repr`. -/
def display : Value → Text
  | .str s => s
  | .date iso => iso
  | .stamp iso => String.ofList (iso.toList.set 10 ' ')
  | v => v.repr

end Value

end BlockPlan
