import BlockPlan.Text.Basic
import BlockPlan.Decimal.Shortest

/-!
# JSON values and their text

`Json` is a JSON value whose objects keep their members in order. `Json.render` writes it
under a `Style`: the separators between items and between a key and its value, an optional
indent that puts every item on a line of its own, and whether text outside ASCII is escaped.

Strings escape the quote, the backslash and the control characters below `0x20` (`\n`, `\r`,
`\t`, `\b`, `\f` by name, the rest as `\u00XX`); in ASCII style every code point outside
`0x20 ..= 0x7E` is escaped too, one above `0xFFFF` as its two surrogate halves. Numbers are
written by `Decimal.Layout.json`.
-/

namespace BlockPlan

/-- A JSON value; objects keep their members in order. -/
inductive Json where
  | null
  | bool (b : Bool)
  | int (n : Int)
  | float (x : Float)
  | str (s : Text)
  | arr (items : List Json)
  | obj (fields : List (Text × Json))
  deriving Inhabited

/-- How JSON is laid out. -/
structure Json.Style where
  /-- Between two items of an array or two members of an object. -/
  itemSep : Text
  /-- Between a key and its value. -/
  keySep : Text
  /-- With an indent, each item stands on a line of its own, indented once per level. -/
  indent : Option Text
  /-- Escape every code point outside printable ASCII. -/
  ascii : Bool

namespace Json

def Style.compact : Style := ⟨",", ":", none, false⟩

/-- One line with a blank after each separator, ASCII only. -/
def Style.spaced : Style := ⟨", ", ": ", none, true⟩

/-- One item per line under the given indent, text outside ASCII kept or escaped. -/
def Style.indented (unit : Text) (ascii : Bool) : Style := ⟨",", ": ", some unit, ascii⟩

def unicodeEscape (c : Nat) : List Nat := (Text.ofString ("\\u" ++ hexDigits 4 c)).points

/-- The escaped form of one code point inside a string. -/
def escapePoint (ascii : Bool) (c : Nat) : List Nat :=
  if c = 0x22 then [0x5C, 0x22]
  else if c = 0x5C then [0x5C, 0x5C]
  else if c = 0x0A then [0x5C, 0x6E]
  else if c = 0x0D then [0x5C, 0x72]
  else if c = 0x09 then [0x5C, 0x74]
  else if c = 0x08 then [0x5C, 0x62]
  else if c = 0x0C then [0x5C, 0x66]
  else if c < 0x20 then unicodeEscape c
  else if !ascii || c ≤ 0x7E then [c]
  else if c < 0x10000 then unicodeEscape c
  else
    let v := c - 0x10000
    unicodeEscape (0xD800 + v / 0x400) ++ unicodeEscape (0xDC00 + v % 0x400)

/-- A string in quotes with its code points escaped. -/
def quote (ascii : Bool) (t : Text) : Text :=
  ⟨0x22 :: t.points.flatMap (escapePoint ascii) ++ [0x22]⟩

def newline (unit : Text) (level : Nat) : Text := ⟨[0x0A]⟩ ++ Text.replicate level unit

def floatText (x : Float) : Text := Decimal.Layout.json.render x

def intText (n : Int) : Text :=
  if n < 0 then Text.ofString ("-" ++ Decimal.natText n.natAbs) else Decimal.natText n.toNat

/-- The separator between two items at a level: with an indent it ends the line. -/
def separator (st : Style) (level : Nat) : Text :=
  match st.indent with
  | none => st.itemSep
  | some unit => st.itemSep ++ newline unit level

mutual

/-- The text of a value at nesting level `level`. -/
def render (st : Style) (level : Nat) : Json → Text
  | .null => "null"
  | .bool b => if b then "true" else "false"
  | .int n => intText n
  | .float x => floatText x
  | .str s => quote st.ascii s
  | .arr [] => "[]"
  | .arr items =>
    match st.indent with
    | none => "[" ++ renderItems st level items ++ "]"
    | some unit =>
      "[" ++ newline unit (level + 1) ++ renderItems st (level + 1) items ++ newline unit level ++ "]"
  | .obj [] => "\x7b\x7d"
  | .obj fields =>
    match st.indent with
    | none => "\x7b" ++ renderFields st level fields ++ "\x7d"
    | some unit =>
      "\x7b" ++ newline unit (level + 1) ++ renderFields st (level + 1) fields ++ newline unit level ++ "\x7d"

/-- Array items with separators between them. -/
def renderItems (st : Style) (level : Nat) : List Json → Text
  | [] => Text.empty
  | [j] => render st level j
  | j :: rest => render st level j ++ separator st level ++ renderItems st level rest

/-- Object members with separators between them. -/
def renderFields (st : Style) (level : Nat) : List (Text × Json) → Text
  | [] => Text.empty
  | [(k, j)] => quote st.ascii k ++ st.keySep ++ render st level j
  | (k, j) :: rest =>
    quote st.ascii k ++ st.keySep ++ render st level j ++ separator st level ++
      renderFields st level rest

end

def write (st : Style) (j : Json) : Text := render st 0 j

end Json

end BlockPlan
