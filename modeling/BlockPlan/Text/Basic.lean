/-!
# Text that may hold unpaired surrogates

An escape such as `\ud800` in a quoted string names one half of a UTF-16 pair on its own.
`String` cannot hold such a half, so text here is a list of code points below `0x110000`
with the surrogates `0xD800 ..= 0xDFFF` allowed. Text without surrogates is exactly a
`String` (`Text.ofString`).

* `Text.fuse` joins a high surrogate that is followed by a low one into the code point the
  pair encodes, as reading the text back from escapes does.
* `Text.scrub` puts three replacement characters in place of each surrogate: its three-byte
  form decoded with replacement.
-/

namespace BlockPlan

/-- A code point is a surrogate when it lies in `0xD800 ..= 0xDFFF`. -/
def isSurrogate (c : Nat) : Bool := 0xD800 ≤ c && c ≤ 0xDFFF

def isHighSurrogate (c : Nat) : Bool := 0xD800 ≤ c && c ≤ 0xDBFF

def isLowSurrogate (c : Nat) : Bool := 0xDC00 ≤ c && c ≤ 0xDFFF

/-- Text as a list of code points, which may include unpaired surrogates. -/
structure Text where
  points : List Nat
  deriving DecidableEq, Inhabited, Hashable

namespace Text

def ofString (s : String) : Text := ⟨s.toList.map Char.toNat⟩

instance : Coe String Text := ⟨ofString⟩

instance : Append Text := ⟨fun a b => ⟨a.points ++ b.points⟩⟩

def empty : Text := ⟨[]⟩

instance : EmptyCollection Text := ⟨empty⟩

def single (c : Nat) : Text := ⟨[c]⟩

def length (t : Text) : Nat := t.points.length

def isEmpty (t : Text) : Bool := t.points.isEmpty

def hasSurrogate (t : Text) : Bool := t.points.any isSurrogate

/-- The `String` of the text, with a replacement character for each surrogate. -/
def toStr (t : Text) : String :=
  String.ofList (t.points.map fun c => if isSurrogate c then '�' else Char.ofNat c)

/-- Joins the texts with `sep` between neighbours. -/
def join (sep : Text) : List Text → Text
  | [] => empty
  | [t] => t
  | t :: ts => t ++ sep ++ join sep ts

def replicate (n : Nat) (t : Text) : Text := ⟨(List.replicate n t.points).flatten⟩

def startsWith (t p : Text) : Bool := p.points.isPrefixOf t.points

def endsWith (t p : Text) : Bool := p.points.isSuffixOf t.points

/-- Joins each high surrogate that is directly followed by a low one into one code point. -/
def fuseList : List Nat → List Nat
  | [] => []
  | [c] => [c]
  | a :: b :: rest =>
    if isHighSurrogate a && isLowSurrogate b then
      (0x10000 + (a - 0xD800) * 0x400 + (b - 0xDC00)) :: fuseList rest
    else a :: fuseList (b :: rest)

/-- The text with every well-formed surrogate pair joined. -/
def fuse (t : Text) : Text := ⟨fuseList t.points⟩

/-- The text with three replacement characters in place of each surrogate. -/
def scrub (t : Text) : Text :=
  ⟨t.points.flatMap fun c => if isSurrogate c then [0xFFFD, 0xFFFD, 0xFFFD] else [c]⟩

/-- Compares two texts code point by code point; a proper prefix comes first. -/
def compareList : List Nat → List Nat → Ordering
  | [], [] => .eq
  | [], _ :: _ => .lt
  | _ :: _, [] => .gt
  | a :: as, b :: bs => if a < b then .lt else if b < a then .gt else compareList as bs

instance : Ord Text := ⟨fun a b => compareList a.points b.points⟩

def le (a b : Text) : Bool := compareList a.points b.points != .gt

def asciiUpper (t : Text) : Text :=
  ⟨t.points.map fun c => if 0x61 ≤ c && c ≤ 0x7A then c - 32 else c⟩

def asciiLower (t : Text) : Text :=
  ⟨t.points.map fun c => if 0x41 ≤ c && c ≤ 0x5A then c + 32 else c⟩

/-- Splits at every occurrence of the code point `sep`. -/
def splitOn (t : Text) (sep : Nat) : List Text :=
  (t.points.splitOn sep).map Text.mk

end Text

/-- Puts `v` under `k` in entries kept in insertion order: in place of the value of the entry
with key `k`, which keeps its place, or as a new entry at the end. -/
def putEntry {κ α : Type} [BEq κ] (entries : List (κ × α)) (k : κ) (v : α) : List (κ × α) :=
  if entries.any (fun e => e.1 == k) then
    entries.map fun e => if e.1 == k then (e.1, v) else e
  else entries ++ [(k, v)]

/-- Lowercase hexadecimal digits of `n`, padded with zeros to `width`. -/
def hexDigits (width n : Nat) : String :=
  let ds := Nat.toDigits 16 n
  String.ofList (List.replicate (width - ds.length) '0' ++ ds)

end BlockPlan
