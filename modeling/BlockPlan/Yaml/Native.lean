import BlockPlan.Yaml.Node
import BlockPlan.Value.Graph
import BlockPlan.Text.Utf8
import BlockPlan.Decimal.Nearest
import BlockPlan.Text.Case
import BlockPlan.Text.Numeral

/-!
# Values of YAML documents

`readYaml` reads a stream of at most one document into a `Value`; an empty stream is null.
Each node becomes a value by its tag: `null`, `bool`, `int`, `float`, `binary` (base64 text as
bytes), `timestamp` (a date, or a date with time and offset), `str`, `seq` (a list), `map` (a
map whose later equal key replaces the value in the earlier key's place), `set` (the keys of a
mapping), and `omap` and `pairs` (lists of key-value tuples). Any other tag is a fault.

A mapping's `<<` keys merge the pairs of the mappings they name in front of its own, so that its
own keys win. A collection cannot be a key of a map or set.

The faults are found in the order in which nodes are made: a collection is made empty at once
and filled later, after every collection met before it, so the nodes are visited level by
level; scalars are made when they are met (`firstFault`).
-/

namespace BlockPlan.Yaml

/-- What a tag makes of its node. -/
inductive Maker where
  | null
  | bool
  | int
  | float
  | binary
  | timestamp
  | str
  | seq
  | map
  | set
  | omap
  | pairs
  deriving BEq, Inhabited

/-- The makers of the tags that have one. -/
def makers : List (String × Maker) :=
  [("null", .null), ("bool", .bool), ("int", .int), ("float", .float), ("binary", .binary),
    ("timestamp", .timestamp), ("omap", .omap), ("pairs", .pairs), ("set", .set), ("str", .str),
    ("seq", .seq), ("map", .map)]

def makerOf (tag : Text) : Option Maker :=
  (makers.find? fun e => coreTag e.1 == tag).map (·.2)

def Maker.isScalar : Maker → Bool
  | .null | .bool | .int | .float | .binary | .timestamp | .str => true
  | _ => false

/-! ## Numbers -/

/-- The failure of text that is not a whole number in a base: the text's quoted form cut to 200
characters, or the number of its digits when there are too many. -/
def wholeFault (base : Nat) (cs : List Nat) : Numeral.WholeFault → YamlFault
  | .invalid =>
    .failure (.of .wrongValue (Text.ofString s!"invalid literal for int() with base {base}: " ++
      Text.ofString (String.ofList ((reprText ⟨cs⟩).toList.take 200))))
  | .tooManyDigits n =>
    .failure (.of .wrongValue (Text.ofString
      s!"Exceeds the limit ({Numeral.digitLimit} digits) for integer string conversion: value has {n} digits; use sys.set_int_max_str_digits() to increase the limit"))

def wholeOrFault (base : Nat) (cs : List Nat) : Except YamlFault Int :=
  (Numeral.readWhole base cs).mapError (wholeFault base cs)

/-- The failure of reading the first character of empty text. -/
def emptyFault : YamlFault := .failure (.of .outOfRange "string index out of range")

def colonParts (cs : List Nat) : List (List Nat) := (Text.splitOn ⟨cs⟩ ':'.toNat).map (·.points)

/-- Base-60 places, most significant first, as one number. -/
def sixtiesValue (places : List Int) : Int := places.foldl (fun acc d => acc * 60 + d) 0

/-- The sign of text and the rest. -/
def splitSign (cs : List Nat) : Bool × List Nat :=
  match cs with
  | c :: r => if c == '-'.toNat then (true, r) else if c == '+'.toNat then (false, r) else (false, cs)
  | [] => (false, [])

/-- A whole number: underscores dropped, an optional sign, then `0b` binary, `0x` hexadecimal,
a leading `0` octal, colons base 60, or decimal. -/
def yamlInt (v : Text) : Except YamlFault Int := do
  let value := v.points.filter (· != '_'.toNat)
  if value.isEmpty then throw emptyFault
  let (neg, value) := splitSign value
  let signed := fun (n : Int) => if neg then -n else n
  if value == points "0" then pure 0
  else if (points "0b").isPrefixOf value then signed <$> wholeOrFault 2 (value.drop 2)
  else if (points "0x").isPrefixOf value then signed <$> wholeOrFault 16 (value.drop 2)
  else
    match value with
    | [] => throw emptyFault
    | c :: _ =>
      if c == '0'.toNat then signed <$> wholeOrFault 8 value
      else if value.contains ':'.toNat then do
        let places ← (colonParts value).mapM (wholeOrFault 10)
        pure (signed (sixtiesValue places))
      else signed <$> wholeOrFault 10 value

/-- A double, or the failure of text that is not one. -/
def floatOrFault (cs : List Nat) : Except YamlFault Float :=
  match Numeral.readDouble cs with
  | some x => .ok x
  | none => .error (.failure (.of .wrongValue
      (Text.ofString "could not convert string to float: " ++ Text.ofString (reprText ⟨cs⟩))))

/-- The failure of a place value of base 60 too large to be a double. -/
def overflowFault : YamlFault := .failure (.of .overflow "int too large to convert to float")

/-- A double: underscores dropped and letters lowercased, an optional sign, then `.inf`,
`.nan`, colons base 60, or decimal text; each place value of base 60 must be a double. -/
def yamlFloat (v : Text) : Except YamlFault Float := do
  let value := (Text.lower ⟨v.points.filter (· != '_'.toNat)⟩).points
  if value.isEmpty then throw emptyFault
  let (neg, value) := splitSign value
  let signed := fun (x : Float) => if neg then -x else x
  if value == points ".inf" then pure (signed (1.0 / 0.0))
  else if value == points ".nan" then pure Value.nan
  else if value.contains ':'.toNat then do
    let places ← (colonParts value).mapM floatOrFault
    let (total, _) ← places.reverse.foldlM (fun (acc : Float × Nat) d => do
      let place := Float.ofNat acc.2
      if !place.isFinite then throw overflowFault
      pure (acc.1 + d * place, acc.2 * 60)) (0.0, 1)
    pure (signed total)
  else signed <$> floatOrFault value

/-! ## Truth values -/

/-- A truth word, in any case. -/
def yamlBool (v : Text) : Except YamlFault Bool :=
  let w := (Text.lower v).points
  if w == points "yes" || w == points "true" || w == points "on" then .ok true
  else if w == points "no" || w == points "false" || w == points "off" then .ok false
  else .error (.failure (.of .missingKey (Text.ofString (reprText (Text.lower v)))))

/-! ## Bytes -/

/-- The value of a base64 character. -/
def base64Digit (c : Nat) : Option Nat :=
  if 0x41 ≤ c && c ≤ 0x5A then some (c - 0x41)
  else if 0x61 ≤ c && c ≤ 0x7A then some (c - 0x61 + 26)
  else if 0x30 ≤ c && c ≤ 0x39 then some (c - 0x30 + 52)
  else if c == '+'.toNat then some 62
  else if c == '/'.toNat then some 63
  else none

/-- The state of decoding base64: the place in the current group of four, the bits left over,
the padding seen, and the bytes so far, reversed. -/
structure Base64State where
  place : Nat
  left : Nat
  pads : Nat
  out : List UInt8

/-- Decodes base64 text, skipping characters outside the alphabet. Padding that completes a group
ends the data; a last group of one character or an incomplete one without padding is refused. -/
def decodeBase64 (cs : List Nat) : Except String (List UInt8) :=
  loop cs ⟨0, 0, 0, []⟩
where
  loop : List Nat → Base64State → Except String (List UInt8)
    | [], st =>
      if st.place == 0 then .ok st.out.reverse
      else if st.place == 1 then
        .error s!"Invalid base64-encoded string: number of data characters ({st.out.length / 3 * 4 + 1}) cannot be 1 more than a multiple of 4"
      else .error "Incorrect padding"
    | c :: rest, st =>
      if c == '='.toNat then
        if st.place ≥ 2 && st.place + (st.pads + 1) ≥ 4 then .ok st.out.reverse
        else loop rest (if st.place ≥ 2 then { st with pads := st.pads + 1 } else st)
      else
        match base64Digit c with
        | none => loop rest st
        | some d =>
          let st := { st with pads := 0 }
          match st.place with
          | 0 => loop rest { st with place := 1, left := d }
          | 1 =>
            let b := (st.left * 4 + d / 16).toUInt8
            loop rest { st with place := 2, left := d % 16, out := b :: st.out }
          | 2 =>
            let b := ((st.left * 16 + d / 4) % 256).toUInt8
            loop rest { st with place := 3, left := d % 4, out := b :: st.out }
          | _ =>
            let b := ((st.left * 64 + d) % 256).toUInt8
            loop rest { st with place := 0, left := 0, out := b :: st.out }

/-- The first run of characters outside ASCII: where it starts, ends, and its first character. -/
def asciiRun (cs : List Nat) : Option (Nat × Nat × Nat) :=
  match cs.zipIdx.find? (fun e => e.1 ≥ 0x80) with
  | some (c, i) =>
    let len := ((cs.drop i).takeWhile (· ≥ 0x80)).length
    some (i, i + len, c)
  | none => none

/-- Base64 text as bytes. -/
def yamlBinary (v : Text) (start : Mark) : Except YamlFault (List UInt8) :=
  match asciiRun v.points with
  | some (i, j, c) =>
    let detail :=
      if j == i + 1 then
        s!"'ascii' codec can't encode character '{escapeForMessage c}' in position {i}: ordinal not in range(128)"
      else s!"'ascii' codec can't encode characters in position {i}-{j - 1}: ordinal not in range(128)"
    .error (.found (Text.ofString ("failed to convert base64 data into ascii: " ++ detail)) start)
  | none =>
    match decodeBase64 v.points with
    | .ok bs => .ok bs
    | .error e => .error (.found (Text.ofString ("failed to decode base64 data: " ++ e)) start)

/-! ## Timestamps -/

/-- Reads between `lo` and `hi` digits, as many as stand there. -/
def digitsBetween (lo hi : Nat) (cs : List Nat) : Option (Nat × Nat × List Nat) :=
  let ds := (cs.takeWhile isDigit).take hi
  if ds.length < lo then none
  else some (ds.foldl (fun acc d => acc * 10 + (d - 0x30)) 0, ds.length, cs.drop ds.length)

/-- Reads one given character. -/
def expectChar (c : Char) (cs : List Nat) : Option (List Nat) :=
  match cs with
  | d :: r => if d == c.toNat then some r else none
  | [] => none

/-- The parts of a timestamp. -/
structure Stamp where
  year : Nat
  month : Nat
  day : Nat
  /-- Hour, minute, second and microsecond, when a time is given. -/
  time : Option (Nat × Nat × Nat × Nat)
  /-- The offset: none for none, `Z` as zero minutes, else signed hours and minutes. -/
  zone : Option (Bool × Nat × Nat)

/-- Reads the time of day and offset after a date. -/
def stampTime (cs : List Nat) :
    Option ((Nat × Nat × Nat × Nat) × Option (Bool × Nat × Nat) × List Nat) := do
  let cs ← match cs with
    | c :: r =>
      if c == 'T'.toNat || c == 't'.toNat then some r
      else if c == 0x20 || c == 0x09 then some (r.dropWhile fun c => c == 0x20 || c == 0x09)
      else none
    | [] => none
  let (hour, _, cs) ← digitsBetween 1 2 cs
  let cs ← expectChar ':' cs
  let (minute, _, cs) ← digitsBetween 2 2 cs
  let cs ← expectChar ':' cs
  let (second, _, cs) ← digitsBetween 2 2 cs
  let (micro, cs) :=
    match expectChar '.' cs with
    | some r =>
      let ds := r.takeWhile isDigit
      let six := (ds.take 6) ++ List.replicate (6 - min 6 ds.length) 0x30
      ((six.foldl (fun acc d => acc * 10 + (d - 0x30)) 0), r.drop ds.length)
    | none => (0, cs)
  let blanks := cs.takeWhile fun c => c == 0x20 || c == 0x09
  let afterBlanks := cs.drop blanks.length
  let zone : Option ((Bool × Nat × Nat) × List Nat) :=
    match afterBlanks with
    | c :: r =>
      if c == 'Z'.toNat then some ((false, 0, 0), r)
      else if c == '-'.toNat || c == '+'.toNat then do
        let (h, _, r) ← digitsBetween 1 2 r
        match expectChar ':' r with
        | some r2 =>
          match digitsBetween 2 2 r2 with
          | some (m, _, r3) => some ((c == '-'.toNat, h, m), r3)
          | none => some ((c == '-'.toNat, h, 0), r)
        | none => some ((c == '-'.toNat, h, 0), r)
      else none
    | [] => none
  match zone with
  | some (z, rest) => pure ((hour, minute, second, micro), some z, rest)
  | none => pure ((hour, minute, second, micro), none, cs)

/-- Reads a whole timestamp: `YYYY-M-D`, then optionally a time of day and an offset. -/
def readStampExactly (cs : List Nat) : Option Stamp := do
  let (year, _, cs) ← digitsBetween 4 4 cs
  let cs ← expectChar '-' cs
  let (month, _, cs) ← digitsBetween 1 2 cs
  let cs ← expectChar '-' cs
  let (day, _, cs) ← digitsBetween 1 2 cs
  if cs.isEmpty then pure ⟨year, month, day, none, none⟩
  else
    let (time, zone, rest) ← stampTime cs
    if rest.isEmpty then pure ⟨year, month, day, some time, zone⟩ else none

/-- Reads a timestamp, which may be followed by one line feed. -/
def readStamp (cs : List Nat) : Option Stamp :=
  match readStampExactly cs with
  | some st => some st
  | none => if cs.getLast? == some 0x0A then readStampExactly cs.dropLast else none

def isLeap (y : Nat) : Bool := y % 4 == 0 && (y % 100 != 0 || y % 400 == 0)

def daysIn (y m : Nat) : Nat :=
  if m == 2 then (if isLeap y then 29 else 28)
  else if m == 4 || m == 6 || m == 9 || m == 11 then 30 else 31

def padded (width n : Nat) : String :=
  let s := toString n
  String.ofList (List.replicate (width - s.length) '0') ++ s

/-- The failure of a part of a date or time out of range. -/
def rangeFault (message : String) : YamlFault := .failure (.of .wrongValue (Text.ofString message))

/-- How a span of time is written: days and seconds, each left out when zero. -/
def spanRepr (seconds : Int) : String :=
  let days := seconds / 86400
  let rest := seconds - days * 86400
  let parts := (if days != 0 then [s!"days={days}"] else []) ++
    (if rest != 0 then [s!"seconds={rest}"] else [])
  if parts.isEmpty then "datetime.timedelta(0)"
  else "datetime.timedelta(" ++ ", ".intercalate parts ++ ")"

/-- The value of a timestamp: a date, or a date with time whose offset is checked first. -/
def yamlStamp (v : Text) : Except YamlFault Value := do
  let some st := readStamp v.points
    | throw (.failure (.of .missingAttribute "'NoneType' object has no attribute 'groupdict'"))
  let offset : Option String ← match st.time, st.zone with
    | some _, some (neg, h, m) =>
      let minutes : Int := h * 60 + m
      let signedMinutes := if neg then -minutes else minutes
      if minutes ≥ 1440 then
        throw (rangeFault ("offset must be a timedelta strictly between -timedelta(hours=24) and " ++
          "timedelta(hours=24), not " ++ spanRepr (signedMinutes * 60) ++ "."))
      pure (some ((if neg && minutes != 0 then "-" else "+") ++ padded 2 (h + m / 60) ++ ":" ++
        padded 2 (m % 60)))
    | _, _ => pure none
  if st.year == 0 then throw (rangeFault s!"year {st.year} is out of range")
  if st.month < 1 || st.month > 12 then throw (rangeFault "month must be in 1..12")
  if st.day < 1 || st.day > daysIn st.year st.month then
    throw (rangeFault "day is out of range for month")
  let date := padded 4 st.year ++ "-" ++ padded 2 st.month ++ "-" ++ padded 2 st.day
  match st.time with
  | none => pure (.date date)
  | some (h, mi, s, us) =>
    if h > 23 then throw (rangeFault "hour must be in 0..23")
    if mi > 59 then throw (rangeFault "minute must be in 0..59")
    if s > 59 then throw (rangeFault "second must be in 0..59")
    let frac := if us == 0 then "" else "." ++ padded 6 us
    pure (.stamp (date ++ "T" ++ padded 2 h ++ ":" ++ padded 2 mi ++ ":" ++ padded 2 s ++ frac ++
      offset.getD ""))

/-! ## Nodes to values -/

/-- The value of a scalar's text under a scalar maker. -/
def scalarValue (m : Maker) (v : Text) (start : Mark) : Except YamlFault Value :=
  match m with
  | .null => .ok .null
  | .bool => .bool <$> yamlBool v
  | .int => .int <$> yamlInt v
  | .float => .float <$> yamlFloat v
  | .binary => .bytes <$> yamlBinary v start
  | .timestamp => yamlStamp v
  | _ => .ok (.str v)

/-- The state of making the values of a document: the pairs of each mapping as merging has
left them, the keys that became text, the cell each node was made into, the cells, and the
collections started, of which those from `next` on wait to be filled. -/
structure Making where
  pairs : Array (List (Nat × Nat))
  retagged : List Nat
  made : Array (Option Nat)
  cells : Array Cell
  waiting : Array (Nat × Maker)
  next : Nat
  deriving Inhabited

namespace Making

/-- The state before any node is made. -/
def start (doc : Document) : Making where
  pairs := doc.nodes.map fun
    | .mapping _ ps _ => ps
    | _ => []
  retagged := []
  made := Array.replicate doc.nodes.size none
  cells := Graph.empty.cells
  waiting := #[]
  next := 0

def graph (st : Making) : Graph := ⟨st.cells⟩

/-- The tag of a node, `str` for a `=` key that merging made text. -/
def tagOf (st : Making) (doc : Document) (i : Nat) : Text :=
  if st.retagged.contains i then coreTag "str" else (doc.node i).tag

def pairsOf (st : Making) (i : Nat) : List (Nat × Nat) := st.pairs[i]?.getD []

def addCell (st : Making) (c : Cell) : Making × Nat :=
  let n := st.cells.size
  ({ st with cells := st.cells.push c }, n)

def putCell (st : Making) (i : Nat) (c : Cell) : Making :=
  { st with cells := st.cells.setIfInBounds i c }

def note (st : Making) (i c : Nat) : Making := { st with made := st.made.setIfInBounds i (some c) }

end Making

def unknownTag (tag : Text) (start : Mark) : YamlFault :=
  .found (Text.ofString "could not determine a constructor for the tag " ++
    Text.ofString (reprText tag)) start

/-- The empty container a collection maker starts with. -/
def Maker.emptyCell : Maker → Cell
  | .map => .map []
  | .set => .set []
  | _ => .list []

/-- Whether float text names the not-a-number that all documents share. -/
def namesSharedNaN (v : Text) : Bool :=
  let value := (Text.lower ⟨v.points.filter (· != '_'.toNat)⟩).points
  (splitSign value).2 == points ".nan"

/-- Makes a node at the moment it is met, and gives its cell: a node made before gives the same
cell, a scalar is made at once, and a collection is made empty and waits to be filled. -/
def touch (doc : Document) (st : Making) (i : Nat) : Except YamlFault (Making × Nat) :=
  match st.made[i]? with
  | some (some c) => .ok (st, c)
  | _ =>
    let n := doc.node i
    match makerOf (st.tagOf doc i) with
    | none => .error (unknownTag (st.tagOf doc i) n.start)
    | some m =>
      if m.isScalar then
        match n with
        | .scalar _ v start => do
          let value ← scalarValue m v start
          if m == .float && namesSharedNaN v then pure (st.note i 0, 0)
          else
            let (st, c) := st.addCell (.scalar value)
            pure (st.note i c, c)
        | _ => .error (.found (Text.ofString ("expected a scalar node, but found " ++ n.kindName)) n.start)
      else
        let (st, c) := st.addCell m.emptyCell
        let st := st.note i c
        .ok ({ st with waiting := st.waiting.push (i, m) }, c)

/-- Merges the `<<` keys of mapping node `i` from pair `index` on; `merged` holds the pairs
taken from the mappings named so far. Each `<<` pair is removed and the pairs of the mapping it
names, merged first, are taken, those of a later mapping of a list before an earlier one; a `=`
key becomes text. At the end the pairs taken go in front of the pairs left. -/
def merge (doc : Document) : Nat → Making → Nat → Nat → List (Nat × Nat) →
    Except YamlFault Making
  | 0, st, _, _, _ => .ok st
  | fuel + 1, st, i, index, merged =>
    let ps := st.pairsOf i
    match ps[index]? with
    | none =>
      if merged.isEmpty then .ok st
      else .ok { st with pairs := st.pairs.setIfInBounds i (merged ++ ps) }
    | some (k, v) =>
      let start := (doc.node i).start
      if st.tagOf doc k == coreTag "merge" then do
        let st := { st with pairs := st.pairs.setIfInBounds i (ps.eraseIdx index) }
        match doc.node v with
        | .mapping .. =>
          let st ← merge doc fuel st v 0 []
          merge doc fuel st i index (merged ++ st.pairsOf v)
        | .sequence _ subs _ =>
          let (st, taken) ← subs.foldlM (fun (acc : Making × List (List (Nat × Nat))) sub => do
            let (st, taken) := acc
            match doc.node sub with
            | .mapping .. =>
              let st ← merge doc fuel st sub 0 []
              pure (st, st.pairsOf sub :: taken)
            | n => throw (.within "while constructing a mapping" start
                (Text.ofString ("expected a mapping for merging, but found " ++ n.kindName)) n.start))
            (st, [])
          merge doc fuel st i index (merged ++ taken.flatten)
        | n => throw (.within "while constructing a mapping" start
            (Text.ofString ("expected a mapping or list of mappings for merging, but found " ++
              n.kindName)) n.start)
      else if st.tagOf doc k == coreTag "value" then
        merge doc fuel { st with retagged := st.retagged ++ [k] } i (index + 1) merged
      else merge doc fuel st i (index + 1) merged

def pairsContext (m : Maker) : String :=
  if m == .omap then "while constructing an ordered map" else "while constructing pairs"

/-- Puts a key cell into a map's entries: in place of the value of the same key, or at the
end. -/
def putKey (g : Graph) (es : List (Nat × Nat)) (k v : Nat) : List (Nat × Nat) :=
  if es.any (fun e => g.sameKey k e.1) then es.map fun e => if g.sameKey k e.1 then (e.1, v) else e
  else es ++ [(k, v)]

/-- Fills a started collection: its members are made in order, and the cell of node `i` is
given them. -/
def fill (doc : Document) (fuel : Nat) (st : Making) (i : Nat) (m : Maker) :
    Except YamlFault Making := do
  let n := doc.node i
  let c := (st.made[i]?.getD none).getD 0
  match m with
  | .seq =>
    match n with
    | .sequence _ items _ =>
      let (st, cells) ← items.foldlM (fun (acc : Making × List Nat) j => do
        let (st, xs) := acc
        let (st, x) ← touch doc st j
        pure (st, x :: xs)) (st, [])
      pure (st.putCell c (.list cells.reverse))
    | _ => throw (.found (Text.ofString ("expected a sequence node, but found " ++ n.kindName)) n.start)
  | .omap | .pairs =>
    match n with
    | .sequence _ items _ =>
      let (st, cells) ← items.foldlM (fun (acc : Making × List Nat) j => do
        let (st, xs) := acc
        let sub := doc.node j
        match sub with
        | .mapping .. =>
          match st.pairsOf j with
          | [(k, v)] =>
            let (st, kc) ← touch doc st k
            let (st, vc) ← touch doc st v
            let (st, t) := st.addCell (.tuple [kc, vc])
            pure (st, t :: xs)
          | ps =>
            throw (.within (pairsContext m) n.start
              (Text.ofString s!"expected a single mapping item, but found {ps.length} items") sub.start)
        | _ =>
          throw (.within (pairsContext m) n.start
            (Text.ofString ("expected a mapping of length 1, but found " ++ sub.kindName)) sub.start))
        (st, [])
      pure (st.putCell c (.list cells.reverse))
    | _ =>
      throw (.within (pairsContext m) n.start
        (Text.ofString ("expected a sequence, but found " ++ n.kindName)) n.start)
  | _ =>
    match n with
    | .mapping .. =>
      let st ← merge doc fuel st i 0 []
      let (st, es) ← (st.pairsOf i).foldlM (fun (acc : Making × List (Nat × Nat)) kv => do
        let (st, es) := acc
        let (st, kc) ← touch doc st kv.1
        if !(st.cells[kc]? matches some (.scalar _)) then
          throw (.within "while constructing a mapping" n.start "found unhashable key"
            (doc.node kv.1).start)
        let (st, vc) ← touch doc st kv.2
        let es := putKey st.graph es kc vc
        pure (st, es)) (st, [])
      let cell : Cell := if m == .set then .set (es.map (·.1)) else .map es
      pure (st.putCell c cell)
    | _ => throw (.found (Text.ofString ("expected a mapping node, but found " ++ n.kindName)) n.start)

/-- Fills the waiting collections in the order they were started, those started meanwhile
after them, so that the nodes are made level by level; `fuel` bounds the collections. -/
def fillAll (doc : Document) (fuel : Nat) : Nat → Making → Except YamlFault Making
  | 0, st => .ok st
  | more + 1, st =>
    match st.waiting[st.next]? with
    | none => .ok st
    | some (i, m) => do
      let st ← fill doc fuel { st with next := st.next + 1 } i m
      fillAll doc fuel more st

/-- The values of a document as a graph, and the cell of its top node; the first fault met in
making them otherwise. -/
def Document.values (doc : Document) : Except YamlFault (Graph × Nat) := do
  let fuel := 4 * (doc.nodes.foldl (fun acc n => acc + match n with
    | .mapping _ ps _ => ps.length + 1
    | _ => 1) 0) + 16
  let (st, root) ← touch doc (Making.start doc) doc.root
  let st ← fillAll doc fuel (doc.nodes.size + 1) st
  pure (st.graph, root)

end BlockPlan.Yaml

namespace BlockPlan

/-- Reads a YAML stream of at most one document as a graph of values and the cell of its top
value, for a routine at call depth `caller`; none for a stream without document. -/
def readYamlGraph (src : Text) (caller : Nat) : Except Yaml.YamlFault (Option (Graph × Nat)) := do
  match ← Yaml.singleDocument src caller with
  | none => pure none
  | some doc => some <$> doc.values

/-- Reads a YAML stream of at most one document as a value, for a routine at call depth
`caller`; a stream without one is null. -/
def readYaml (src : Text) (caller : Nat) : Except Yaml.YamlFault Value := do
  match ← readYamlGraph src caller with
  | none => pure .null
  | some (g, root) => pure (g.term root)

end BlockPlan
