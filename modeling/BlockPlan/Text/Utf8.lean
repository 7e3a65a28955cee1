import BlockPlan.Text.Basic

/-!
# UTF-8 for text with surrogates

Encoding refuses surrogates: `Text.utf8` fails at the first run of them and names the run by
code-point positions. Decoding refuses ill-formed bytes: `decodeUtf8` fails at the first
ill-formed sequence and names it by byte positions and a reason, the bytes being read as
UTF-8 strictly (no overlong forms, no surrogates, nothing above `0x10FFFF`).
-/

namespace BlockPlan

/-- A run of surrogates that UTF-8 cannot encode: code-point positions `start` (included) to
`stop` (excluded), and the first surrogate of the run. -/
structure SurrogateRun where
  start : Nat
  stop : Nat
  first : Nat
  deriving DecidableEq, Inhabited

/-- How a code point is written in a message: `\xhh`, `\uhhhh` or `\Uhhhhhhhh`. -/
def escapeForMessage (c : Nat) : String :=
  if c < 0x100 then "\\x" ++ hexDigits 2 c
  else if c < 0x10000 then "\\u" ++ hexDigits 4 c
  else "\\U" ++ hexDigits 8 c

/-- The message for text that fails to encode. -/
def SurrogateRun.message (r : SurrogateRun) : String :=
  if r.stop = r.start + 1 then
    s!"'utf-8' codec can't encode character '{escapeForMessage r.first}' in position {r.start}: surrogates not allowed"
  else
    s!"'utf-8' codec can't encode characters in position {r.start}-{r.stop - 1}: surrogates not allowed"

/-- The UTF-8 bytes of one code point that is not a surrogate. -/
def utf8Point (c : Nat) : List UInt8 :=
  if c < 0x80 then [c.toUInt8]
  else if c < 0x800 then [(0xC0 + c / 0x40).toUInt8, (0x80 + c % 0x40).toUInt8]
  else if c < 0x10000 then
    [(0xE0 + c / 0x1000).toUInt8, (0x80 + c / 0x40 % 0x40).toUInt8, (0x80 + c % 0x40).toUInt8]
  else
    [(0xF0 + c / 0x40000).toUInt8, (0x80 + c / 0x1000 % 0x40).toUInt8,
      (0x80 + c / 0x40 % 0x40).toUInt8, (0x80 + c % 0x40).toUInt8]

def utf8Width (c : Nat) : Nat :=
  if c < 0x80 then 1 else if c < 0x800 then 2 else if c < 0x10000 then 3 else 4

namespace Text

/-- The first run of surrogates at or after position `i` of `cs`. -/
def surrogateRunFrom : Nat → List Nat → Option SurrogateRun
  | _, [] => none
  | i, c :: rest =>
    if isSurrogate c then
      some ⟨i, i + 1 + (rest.takeWhile isSurrogate).length, c⟩
    else surrogateRunFrom (i + 1) rest

def firstSurrogateRun (t : Text) : Option SurrogateRun := surrogateRunFrom 0 t.points

/-- The UTF-8 bytes of the text, or the first run of surrogates. -/
def utf8 (t : Text) : Except SurrogateRun (List UInt8) :=
  match t.firstSurrogateRun with
  | some r => .error r
  | none => .ok (t.points.flatMap utf8Point)

/-- The number of UTF-8 bytes of the text, surrogates counted as three. -/
def utf8Size (t : Text) : Nat := (t.points.map utf8Width).foldl (· + ·) 0

end Text

/-- Why bytes are not UTF-8. -/
inductive DecodeReason where
  | invalidStart
  | invalidContinuation
  | unexpectedEnd
  deriving DecidableEq, Inhabited

/-- An ill-formed sequence: byte positions `start` (included) to `stop` (excluded), the byte at
`start`, and the reason. -/
structure DecodeFault where
  start : Nat
  stop : Nat
  byte : UInt8
  reason : DecodeReason
  deriving Inhabited

/-- The words for a reason. -/
def DecodeReason.words : DecodeReason → String
  | .invalidStart => "invalid start byte"
  | .invalidContinuation => "invalid continuation byte"
  | .unexpectedEnd => "unexpected end of data"

/-- The message for bytes that fail to decode. -/
def DecodeFault.message (f : DecodeFault) : String :=
  if f.stop = f.start + 1 then
    s!"'utf-8' codec can't decode byte 0x{hexDigits 2 f.byte.toNat} in position {f.start}: {f.reason.words}"
  else
    s!"'utf-8' codec can't decode bytes in position {f.start}-{f.stop - 1}: {f.reason.words}"

def isContinuation (b : UInt8) : Bool := 0x80 ≤ b && b ≤ 0xBF

/-- The least and greatest second byte allowed after a lead byte of three or four bytes: the
bounds exclude overlong forms, surrogates and code points above `0x10FFFF`. -/
def secondByteRange (lead : UInt8) : UInt8 × UInt8 :=
  if lead = 0xE0 then (0xA0, 0xBF)
  else if lead = 0xED then (0x80, 0x9F)
  else if lead = 0xF0 then (0x90, 0xBF)
  else if lead = 0xF4 then (0x80, 0x8F)
  else (0x80, 0xBF)

/-- One step of decoding at byte position `pos`: the code point, the number of bytes it took
and the bytes after it, or the fault. The length of a fault is the number of bytes that could
start a well-formed sequence. -/
def decodeStep (pos : Nat) (b : UInt8) (rest : List UInt8) :
    Except DecodeFault (Nat × Nat × List UInt8) :=
  let fault (len : Nat) (r : DecodeReason) : Except DecodeFault (Nat × Nat × List UInt8) :=
    .error ⟨pos, pos + len, b, r⟩
  if b < 0x80 then .ok (b.toNat, 1, rest)
  else if b < 0xC2 then fault 1 .invalidStart
  else if b ≥ 0xF5 then fault 1 .invalidStart
  else
    let need := if b < 0xE0 then 2 else if b < 0xF0 then 3 else 4
    let (lo, hi) := secondByteRange b
    let cs := rest.take (need - 1)
    -- how many bytes after the lead continue a well-formed sequence
    let good : List Bool := cs.zipIdx.map fun (c, i) =>
      if i = 0 then lo ≤ c && c ≤ hi else isContinuation c
    let ok := (good.takeWhile id).length
    if ok < good.length then fault (ok + 1) .invalidContinuation
    else if cs.length + 1 < need then fault (cs.length + 1) .unexpectedEnd
    else
      let lead := if need = 2 then b.toNat - 0xC0 else if need = 3 then b.toNat - 0xE0 else b.toNat - 0xF0
      let c := cs.foldl (fun acc x => acc * 0x40 + (x.toNat - 0x80)) lead
      .ok (c, need, rest.drop (need - 1))

/-- Decodes UTF-8 bytes from byte position `pos`, the code points so far in `acc`, reversed;
`fuel` bounds the number of steps. -/
def decodeFrom : Nat → Nat → List UInt8 → List Nat → Except DecodeFault (List Nat)
  | 0, _, _, acc => .ok acc.reverse
  | _, _, [], acc => .ok acc.reverse
  | fuel + 1, pos, b :: rest, acc => do
    let (c, width, rest') ← decodeStep pos b rest
    decodeFrom fuel (pos + width) rest' (c :: acc)

def decodeUtf8 (bytes : List UInt8) : Except DecodeFault Text :=
  (decodeFrom bytes.length 0 bytes []).map Text.mk

/-- Reading a file in text mode turns `\r\n` and a lone `\r` into `\n`. -/
def Text.normalizeNewlines : List Nat → List Nat
  | [] => []
  | 13 :: 10 :: rest => 10 :: Text.normalizeNewlines rest
  | 13 :: rest => 10 :: Text.normalizeNewlines rest
  | c :: rest => c :: Text.normalizeNewlines rest

end BlockPlan
