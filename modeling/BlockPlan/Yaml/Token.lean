import BlockPlan.Yaml.Fault
import BlockPlan.Text.Utf8

/-!
# Tokens of YAML text

`Scan` turns the code points of a YAML stream into tokens, on demand: `Scan.peekToken` and
`Scan.nextToken` read only as far as the next token needs. Every look past the current code
point is noted (`Scan.ask`), and a character that may not stand in a stream is found once the
code points looked at reach it (`Scan.demand`): after each token, and before each fault of the
text (`Scan.fail`), which it then takes the place of. A token is decided by the
character it starts with and, in block context, by the column it stands in: a column left of
the current indentation closes blocks (`blockEnd`), a `- ` or `? ` or a simple key right of it
opens one.

A simple key (a scalar, alias, anchor, tag or flow collection followed by `:` on the same line)
is only known to be a key when its `:` is read. So the place where a key could start is kept
as a `PossibleKey`, one per flow level, and while one is pending no token after it is handed
out; when the `:` comes, a `key` token (and in block context, a `blockMappingStart`) is put in
front of it. A possible key that reaches the end of its line, or more than 1024 characters, is
given up; one that had to be a key (it stood at the indentation column in block context) is a
fault.

Plain scalars fold their line breaks into spaces; single-quoted ones double their quote;
double-quoted ones have escapes; literal (`|`) and folded (`>`) block scalars keep their lines,
chomping the final breaks as their header says. Tabs only separate inside lines.
-/

namespace BlockPlan.Yaml

def isBreak (c : Nat) : Bool :=
  c == 0x0D || c == 0x0A || c == 0x85 || c == 0x2028 || c == 0x2029

/-- A line break, or the end of the stream (read as code point zero). -/
def isBreakOrEnd (c : Nat) : Bool := c == 0 || isBreak c

def isBlankOrEnd (c : Nat) : Bool := c == 0x20 || c == 0x09 || isBreakOrEnd c

/-- A space, a line break or the end; a tab is not one. -/
def isSpaceOrEnd (c : Nat) : Bool := c == 0x20 || isBreakOrEnd c

def isDigit (c : Nat) : Bool := 0x30 ≤ c && c ≤ 0x39

def isHexDigit (c : Nat) : Bool := isDigit c || (0x41 ≤ c && c ≤ 0x46) || (0x61 ≤ c && c ≤ 0x66)

def hexDigitValue (c : Nat) : Nat :=
  if isDigit c then c - 0x30 else if c ≤ 0x46 then c - 0x41 + 10 else c - 0x61 + 10

def hexNumber (cs : List Nat) : Nat := cs.foldl (fun acc c => acc * 16 + hexDigitValue c) 0

/-- A character of anchor, alias and directive names. -/
def isWordChar (c : Nat) : Bool :=
  isDigit c || (0x41 ≤ c && c ≤ 0x5A) || (0x61 ≤ c && c ≤ 0x7A) || c == '-'.toNat || c == '_'.toNat

/-- Whether a code point is one of the characters of a string. -/
def oneOf (chars : String) (c : Nat) : Bool := chars.toList.any (·.toNat == c)

def isUriChar (c : Nat) : Bool := isWordChar c || oneOf ";/?:@&=+$,_.!~*'()[]%" c

/-- The characters that cannot start a plain scalar, save `-`, `?` and `:` before a non-blank. -/
def isIndicator (c : Nat) : Bool :=
  oneOf "-?:,[]#&*!|>'\"%@" c || c == 0x7B || c == 0x7D || c == 0x60

/-- Characters that end a plain scalar in flow context. -/
def isFlowIndicator (c : Nat) : Bool := oneOf ",?[]" c || c == 0x7B || c == 0x7D

def points (s : String) : List Nat := s.toList.map Char.toNat

/-- What a directive says. -/
inductive Directive where
  /-- `%YAML major.minor`. -/
  | version (major minor : Nat)
  /-- `%TAG handle uri`. -/
  | tagHandle (handle uri : Text)
  /-- A directive of another name, ignored. -/
  | other
  deriving Inhabited

/-- The kinds of tokens. -/
inductive TokenKind where
  | streamStart
  | streamEnd
  | directive (name : Text) (value : Directive)
  | documentStart
  | documentEnd
  | blockSequenceStart
  | blockMappingStart
  | blockEnd
  | flowSequenceStart
  | flowMappingStart
  | flowSequenceEnd
  | flowMappingEnd
  | blockEntry
  | flowEntry
  | key
  | value
  | alias (name : Text)
  | anchor (name : Text)
  /-- A tag: its handle (none for a verbatim tag) and suffix. -/
  | tag (handle : Option Text) (suffix : Text)
  /-- A scalar: its text, and whether it was plain (unquoted and not a block scalar). -/
  | scalar (text : Text) (plain : Bool)
  deriving Inhabited

/-- How messages name a kind of token. -/
def TokenKind.id : TokenKind → String
  | .streamStart => "<stream start>"
  | .streamEnd => "<stream end>"
  | .directive .. => "<directive>"
  | .documentStart => "<document start>"
  | .documentEnd => "<document end>"
  | .blockSequenceStart => "<block sequence start>"
  | .blockMappingStart => "<block mapping start>"
  | .blockEnd => "<block end>"
  | .flowSequenceStart => "["
  | .flowMappingStart => "\x7b"
  | .flowSequenceEnd => "]"
  | .flowMappingEnd => "\x7d"
  | .blockEntry => "-"
  | .flowEntry => ","
  | .key => "?"
  | .value => ":"
  | .alias _ => "<alias>"
  | .anchor _ => "<anchor>"
  | .tag .. => "<tag>"
  | .scalar .. => "<scalar>"

/-- A token and the places where it starts and ends. -/
structure Token where
  kind : TokenKind
  start : Mark
  stop : Mark
  deriving Inhabited

/-- Where a simple key could start: the number of the token it would stand before, whether it
must be a key, and its place. -/
structure PossibleKey where
  tokenNumber : Nat
  required : Bool
  index : Nat
  line : Nat
  mark : Mark
  deriving Inhabited

/-- The state of turning a stream into tokens. -/
structure Scan where
  src : Array Nat
  pos : Nat
  line : Nat
  column : Nat
  /-- The end of the stream has been reached. -/
  done : Bool
  /-- The depth of flow collections; below zero after an unmatched closing bracket. -/
  flowLevel : Int
  /-- Tokens read and not yet handed out. -/
  queue : List Token
  /-- The number of tokens handed out. -/
  taken : Nat
  /-- The indentation of the innermost block, -1 outside any. -/
  indent : Int
  indents : List Int
  allowSimpleKey : Bool
  /-- Possible simple keys by flow level, oldest first. -/
  keys : List (Int × PossibleKey)
  /-- A character that may not stand in a stream, found only once more code points than the
  number given are asked for. -/
  hidden : Option (Nat × YamlFault)
  /-- How many code points from the start have been looked at ahead of the current one. -/
  reach : Nat
  deriving Inhabited

/-- The first position at or after `i` where `p` fails, or the end. -/
def runFrom (src : Array Nat) (p : Nat → Bool) (i : Nat) : Nat :=
  if h : i < src.size then (if p src[i] then runFrom src p (i + 1) else i) else i
termination_by src.size - i

namespace Scan

/-- The start of scanning a stream: one `streamStart` token waits. -/
def start (src : Array Nat) (hidden : Option (Nat × YamlFault)) : Scan :=
  let m : Mark := ⟨0, 0, 0⟩
  ⟨src, 0, 0, 0, false, 0, [⟨.streamStart, m, m⟩], 0, -1, [], true, [], hidden, 0⟩

/-- Asks for the first `need` code points of the stream: a forbidden character read with them
is a fault. -/
def demand (s : Scan) (need : Nat) : Except YamlFault Unit :=
  match s.hidden with
  | some (n, fault) => if need > n then .error fault else .ok ()
  | none => .ok ()

/-- Notes that the next `k` code points, the current one first, are looked at. -/
def ask (s : Scan) (k : Nat) : Scan := { s with reach := max s.reach (s.pos + k) }

/-- How many code points from the start have been looked at: the current one, and those looked
at ahead of it. -/
def asked (s : Scan) : Nat := max s.reach (s.pos + 1)

/-- Fails with `fault`, unless the code points looked at so far hold a forbidden character, which
is then found first. -/
def fail (s : Scan) (fault : YamlFault) : Except YamlFault α := do
  s.demand s.asked
  throw fault

/-- The code point `k` places ahead, zero past the end. -/
def peekAt (s : Scan) (k : Nat) : Nat := s.src[s.pos + k]?.getD 0

def peek (s : Scan) : Nat := s.peekAt 0

def slice (s : Scan) (k : Nat) : List Nat := (List.range k).map s.peekAt

def mark (s : Scan) : Mark := ⟨s.pos, s.line, s.column⟩

/-- Moves past one code point. -/
def advance (s : Scan) : Scan :=
  let c := s.peek
  let pos := s.pos + 1
  if c == 0x0A || c == 0x85 || c == 0x2028 || c == 0x2029 ||
      (c == 0x0D && s.src[pos]?.getD 0 != 0x0A) then
    { s with pos := pos, line := s.line + 1, column := 0 }
  else if c == 0xFEFF then { s with pos := pos }
  else { s with pos := pos, column := s.column + 1 }

def advanceBy (s : Scan) : Nat → Scan
  | 0 => s
  | n + 1 => s.advance.advanceBy n

/-- The number of code points from `k` places ahead for which `p` holds. -/
def runLength (s : Scan) (p : Nat → Bool) (k : Nat) : Nat :=
  runFrom s.src p (s.pos + k) - (s.pos + k)

/-- Moves past the code points for which `p` holds. -/
def advanceWhile (s : Scan) (p : Nat → Bool) : Scan := s.advanceBy (s.runLength p 0)

/-- Moves past a line break: a carriage return with line feed, a line feed, a carriage return
or a next-line character read as a line feed, a line or paragraph separator as itself. -/
def lineBreak (s : Scan) : List Nat × Scan :=
  let c := s.peek
  if c == 0x0D || c == 0x0A || c == 0x85 then
    if c == 0x0D && s.peekAt 1 == 0x0A then ([0x0A], s.advanceBy 2) else ([0x0A], s.advance)
  else if c == 0x2028 || c == 0x2029 then ([c], s.advance)
  else ([], s)

/-- Whether a document marker (`---` or `...`) followed by a blank stands here. Three code points
are looked at, and the one after them when they spell a marker. -/
def separatorAhead (s : Scan) : Bool × Scan :=
  let p := s.slice 3
  if p == points "---" || p == points "..." then (isBlankOrEnd (s.peekAt 3), s.ask 4)
  else (false, s.ask 3)

def emit (s : Scan) (t : Token) : Scan := { s with queue := s.queue ++ [t] }

/-- Queues a token spelled by the next `n` code points. -/
def emitOver (s : Scan) (kind : TokenKind) (n : Nat) : Scan :=
  let start := s.mark
  let s := s.advanceBy n
  s.emit ⟨kind, start, s.mark⟩

/-- Skips blanks, comments and line breaks up to the next token; a line break in block context
allows a simple key again. A byte-order mark at the very start is skipped; tabs are not. -/
def skipToToken (s : Scan) : Scan :=
  let s := if s.pos == 0 && s.peek == 0xFEFF then s.advance else s
  loop (s.src.size + 1) s
where
  loop : Nat → Scan → Scan
    | 0, s => s
    | n + 1, s =>
      let s := s.advanceWhile (· == 0x20)
      let s := if s.peek == '#'.toNat then s.advanceWhile (fun c => !isBreakOrEnd c) else s
      let (br, s) := s.lineBreak
      if br.isEmpty then s
      else loop n (if s.flowLevel == 0 then { s with allowSimpleKey := true } else s)

/-- The fault of a required simple key without its `:`. -/
def keyFault (k : PossibleKey) (m : Mark) : YamlFault :=
  .within "while scanning a simple key" k.mark "could not find expected ':'" m

/-- A possible key that can no longer be one: its line has ended, or it is too far back. -/
def isStale (s : Scan) (k : PossibleKey) : Bool := k.line != s.line || s.pos - k.index > 1024

/-- Gives up the possible keys that can no longer be keys. -/
def staleKeys (s : Scan) : Except YamlFault Scan :=
  match s.keys.find? (fun e => s.isStale e.2 && e.2.required) with
  | some (_, k) => s.fail (keyFault k s.mark)
  | none => .ok { s with keys := s.keys.filter (fun e => !s.isStale e.2) }

/-- Gives up the possible key of the current flow level. -/
def removeKey (s : Scan) : Except YamlFault Scan :=
  match s.keys.lookup s.flowLevel with
  | some k =>
    if k.required then s.fail (keyFault k s.mark)
    else .ok { s with keys := s.keys.filter (·.1 != s.flowLevel) }
  | none => .ok s

/-- Notes that a simple key could start here, when one is allowed. -/
def saveKey (s : Scan) : Except YamlFault Scan := do
  let required := s.flowLevel == 0 && s.indent == (s.column : Int)
  if s.allowSimpleKey then
    let s ← s.removeKey
    let k : PossibleKey := ⟨s.taken + s.queue.length, required, s.pos, s.line, s.mark⟩
    pure { s with keys := s.keys ++ [(s.flowLevel, k)] }
  else pure s

/-- Closes the blocks indented more than `col`, in block context. -/
def unwindIndent (s : Scan) (col : Int) : Scan :=
  if s.flowLevel != 0 then s else loop s.indents.length s
where
  loop : Nat → Scan → Scan
    | 0, s => s
    | n + 1, s =>
      if s.indent > col then
        match s.indents with
        | i :: rest =>
          loop n { s with indent := i, indents := rest, queue := s.queue ++ [⟨.blockEnd, s.mark, s.mark⟩] }
        | [] => s
      else s

/-- Opens a block at column `col` when it is indented more than the current one. -/
def addIndent (s : Scan) (col : Int) : Bool × Scan :=
  if s.indent < col then (true, { s with indents := s.indent :: s.indents, indent := col })
  else (false, s)

/-! ## Anchors, aliases and tags -/

/-- Reads an anchor (`&name`) or alias (`*name`). -/
def scanAnchor (s : Scan) (isAlias : Bool) : Except YamlFault Scan := do
  let start := s.mark
  let what := if isAlias then "while scanning an alias" else "while scanning an anchor"
  let s := s.advance
  let n := s.runLength isWordChar 0
  let bad := fun (s : Scan) (c : Nat) =>
    YamlFault.within what start
      (Text.ofString "expected alphabetic or numeric character, but found " ++ quoted c) s.mark
  if n == 0 then s.fail (bad s s.peek)
  let name : Text := ⟨s.slice n⟩
  let s := s.advanceBy n
  let c := s.peek
  if !(isBlankOrEnd c || oneOf "?:,]%@" c || c == 0x7D || c == 0x60) then s.fail (bad s c)
  let kind := if isAlias then TokenKind.alias name else TokenKind.anchor name
  pure (s.emit ⟨kind, start, s.mark⟩)

/-- Reads `%`-escaped bytes of a URI, which must spell UTF-8. -/
def uriEscapes (s : Scan) (what : String) (start : Mark) : Except YamlFault (List Nat × Scan) :=
  loop s.mark (s.src.size + 1) s []
where
  loop (at0 : Mark) : Nat → Scan → List UInt8 → Except YamlFault (List Nat × Scan)
    | 0, s, _ => .ok ([], s)
    | n + 1, s, bytes =>
      if s.peek == '%'.toNat then
        let s := s.advance
        match (List.range 2).find? (fun k => !isHexDigit (s.peekAt k)) with
        | some k =>
          (s.ask (k + 1)).fail (.within ("while scanning a " ++ what) start
            (Text.ofString "expected URI escape sequence of 2 hexadecimal numbers, but found " ++
              quoted (s.peekAt k)) s.mark)
        | none => loop at0 n (s.advanceBy 2) (bytes ++ [(hexNumber (s.slice 2)).toUInt8])
      else
        match decodeUtf8 bytes with
        | .ok t => .ok (t.points, s)
        | .error f => s.fail (.within ("while scanning a " ++ what) start f.message at0)

/-- Reads the URI of a tag or `%TAG` directive, which must not be empty. -/
def tagUri (s : Scan) (what : String) (start : Mark) : Except YamlFault (List Nat × Scan) :=
  loop (s.src.size + 1) s [] false
where
  loop : Nat → Scan → List Nat → Bool → Except YamlFault (List Nat × Scan)
    | 0, s, acc, _ => .ok (acc, s)
    | n + 1, s, acc, any => do
      let k := s.runLength (fun c => isUriChar c && c != '%'.toNat) 0
      let acc := acc ++ s.slice k
      let s := s.advanceBy k
      let any := any || k > 0
      if s.peek == '%'.toNat then
        let (chunk, s) ← uriEscapes s what start
        loop n s (acc ++ chunk) true
      else if !any then
        s.fail (.within ("while parsing a " ++ what) start
          (Text.ofString "expected URI, but found " ++ quoted s.peek) s.mark)
      else pure (acc, s)

/-- Reads a tag handle: `!`, `!!` or `!word!`. -/
def tagHandle (s : Scan) (what : String) (start : Mark) : Except YamlFault (List Nat × Scan) := do
  let bad := fun (s : Scan) (c : Nat) =>
    YamlFault.within ("while scanning a " ++ what) start
      (Text.ofString "expected '!', but found " ++ quoted c) s.mark
  if s.peek != '!'.toNat then s.fail (bad s s.peek)
  let n :=
    if s.peekAt 1 == 0x20 then 1
    else 1 + s.runLength isWordChar 1
  if s.peekAt 1 != 0x20 then
    if s.peekAt n != '!'.toNat then
      let c := s.peekAt n
      let s := s.advanceBy n
      s.fail (bad s c)
  let n := if s.peekAt 1 == 0x20 then n else n + 1
  pure (s.slice n, s.advanceBy n)

/-- Reads a tag: `!<uri>`, a lone `!`, `!suffix` or `handle!suffix`. -/
def scanTag (s : Scan) : Except YamlFault Scan := do
  let start := s.mark
  let s := s.ask 2
  let c1 := s.peekAt 1
  let (handle, suffix, s) ← show Except YamlFault (Option (List Nat) × List Nat × Scan) from do
    if c1 == '<'.toNat then
      let (suffix, s) ← tagUri (s.advanceBy 2) "tag" start
      if s.peek != '>'.toNat then
        s.fail (.within "while parsing a tag" start
          (Text.ofString "expected '>', but found " ++ quoted s.peek) s.mark)
      pure (none, suffix, s.advance)
    else if isBlankOrEnd c1 then pure (none, points "!", s.advance)
    else
      let k := s.runLength (fun c => c != '!'.toNat && !isSpaceOrEnd c) 1
      let s := s.ask (k + 2)
      let (handle, s) ←
        if s.peekAt (k + 1) == '!'.toNat then tagHandle s "tag" start
        else pure (points "!", s.advance)
      let (suffix, s) ← tagUri s "tag" start
      pure (some handle, suffix, s)
  if !isSpaceOrEnd s.peek then
    s.fail (.within "while scanning a tag" start
      (Text.ofString "expected ' ', but found " ++ quoted s.peek) s.mark)
  pure (s.emit ⟨.tag (handle.map Text.mk) ⟨suffix⟩, start, s.mark⟩)

/-! ## Directives -/

def directiveFault (start : Mark) (problem : String) (c : Nat) (m : Mark) : YamlFault :=
  .within "while scanning a directive" start (Text.ofString problem ++ quoted c) m

/-- Reads the number of a `%YAML` directive. -/
def versionNumber (s : Scan) (start : Mark) : Except YamlFault (Nat × Scan) := do
  if !isDigit s.peek then s.fail (directiveFault start "expected a digit, but found " s.peek s.mark)
  let n := s.runLength isDigit 0
  pure ((s.slice n).foldl (fun acc c => acc * 10 + (c - 0x30)) 0, s.advanceBy n)

/-- Reads a directive, to the end of its line. -/
def scanDirective (s : Scan) : Except YamlFault Scan := do
  let start := s.mark
  let s := s.advance
  let n := s.runLength isWordChar 0
  if n == 0 then
    s.fail (directiveFault start "expected alphabetic or numeric character, but found " s.peek s.mark)
  let name := s.slice n
  let s := s.advanceBy n
  if !isSpaceOrEnd s.peek then
    s.fail (directiveFault start "expected alphabetic or numeric character, but found " s.peek s.mark)
  let (value, s) ← show Except YamlFault (Directive × Scan) from do
    if name == points "YAML" then
      let s := s.advanceWhile (· == 0x20)
      let (major, s) ← versionNumber s start
      if s.peek != '.'.toNat then
        s.fail (directiveFault start "expected a digit or '.', but found " s.peek s.mark)
      let (minor, s) ← versionNumber s.advance start
      if !isSpaceOrEnd s.peek then
        s.fail (directiveFault start "expected a digit or ' ', but found " s.peek s.mark)
      pure (.version major minor, s)
    else if name == points "TAG" then
      let s := s.advanceWhile (· == 0x20)
      let (handle, s) ← tagHandle s "directive" start
      if s.peek != 0x20 then s.fail (directiveFault start "expected ' ', but found " s.peek s.mark)
      let s := s.advanceWhile (· == 0x20)
      let (uri, s) ← tagUri s "directive" start
      if !isSpaceOrEnd s.peek then
        s.fail (directiveFault start "expected ' ', but found " s.peek s.mark)
      pure (.tagHandle ⟨handle⟩ ⟨uri⟩, s)
    else pure (.other, s.advanceWhile (fun c => !isBreakOrEnd c))
  let stop := s.mark
  let s := s.advanceWhile (· == 0x20)
  let s := if s.peek == '#'.toNat then s.advanceWhile (fun c => !isBreakOrEnd c) else s
  if !isBreakOrEnd s.peek then
    s.fail (directiveFault start "expected a comment or a line break, but found " s.peek s.mark)
  let s := s.lineBreak.2
  pure (s.emit ⟨.directive ⟨name⟩ value, start, stop⟩)

/-! ## Plain scalars -/

/-- The length of the next run of a plain scalar's characters on this line. -/
def plainRun (s : Scan) : Nat :=
  loop 0 (s.src.size + 1)
where
  loop (k : Nat) : Nat → Nat
    | 0 => k
    | n + 1 =>
      let c := s.peekAt k
      let next := s.peekAt (k + 1)
      if isBlankOrEnd c ||
          (c == ':'.toNat && (isBlankOrEnd next ||
            (s.flowLevel != 0 && (oneOf ",[]" next || next == 0x7B || next == 0x7D)))) ||
          (s.flowLevel != 0 && isFlowIndicator c) then k
      else loop (k + 1) n

/-- Reads the blanks and line breaks after a run of a plain scalar: what they fold to, or none
when a document marker starts the next line. -/
def plainSpaces (s : Scan) : Option (List Nat) × Scan :=
  let n := s.runLength (· == 0x20) 0
  let spaces := s.slice n
  let s := s.advanceBy n
  if isBreak s.peek then
    let (lb, s) := s.lineBreak
    let s := { s with allowSimpleKey := true }
    let (marker, s) := s.separatorAhead
    if marker then (none, s)
    else
      match breaks (s.src.size + 1) s [] with
      | (none, s) => (none, s)
      | (some bs, s) =>
        let head := if lb != [0x0A] then lb else if bs.isEmpty then [0x20] else []
        (some (head ++ bs), s)
  else (some spaces, s)
where
  breaks : Nat → Scan → List Nat → Option (List Nat) × Scan
    | 0, s, acc => (some acc, s)
    | n + 1, s, acc =>
      if s.peek == 0x20 then breaks n s.advance acc
      else if isBreak s.peek then
        let (b, s) := s.lineBreak
        let (marker, s) := s.separatorAhead
        if marker then (none, s) else breaks n s (acc ++ b)
      else (some acc, s)

/-- Reads a plain scalar. It ends before `: `, ` #`, a line less indented than its block, a
document marker, and in flow context before `,[]{}` and `?`. -/
def scanPlain (s : Scan) : Scan :=
  let start := s.mark
  let indent := s.indent + 1
  loop indent start (s.src.size + 1) s [] [] start
where
  loop (indent : Int) (start : Mark) : Nat → Scan → List Nat → List Nat → Mark → Scan
    | 0, s, chunks, _, stop => s.emit ⟨.scalar ⟨chunks⟩ true, start, stop⟩
    | n + 1, s, chunks, spaces, stop =>
      let k := if s.peek == '#'.toNat then 0 else s.plainRun
      -- a run that stops at `:` has looked at the code point after it
      let s := if s.peek != '#'.toNat && s.peekAt k == ':'.toNat then s.ask (k + 2) else s
      if k == 0 then s.emit ⟨.scalar ⟨chunks⟩ true, start, stop⟩
      else
        let s := { s with allowSimpleKey := false }
        let chunks := chunks ++ spaces ++ s.slice k
        let s := s.advanceBy k
        let stop := s.mark
        match s.plainSpaces with
        | (none, s) => s.emit ⟨.scalar ⟨chunks⟩ true, start, stop⟩
        | (some sp, s) =>
          if sp.isEmpty || s.peek == '#'.toNat || (s.flowLevel == 0 && (s.column : Int) < indent) then
            s.emit ⟨.scalar ⟨chunks⟩ true, start, stop⟩
          else loop indent start n s chunks sp stop

/-! ## Quoted scalars -/

/-- The character a one-letter escape of a double-quoted scalar stands for. -/
def escapeFor (c : Nat) : Option Nat :=
  if c == '0'.toNat then some 0 else if c == 'a'.toNat then some 0x07
  else if c == 'b'.toNat then some 0x08 else if c == 't'.toNat || c == 0x09 then some 0x09
  else if c == 'n'.toNat then some 0x0A else if c == 'v'.toNat then some 0x0B
  else if c == 'f'.toNat then some 0x0C else if c == 'r'.toNat then some 0x0D
  else if c == 'e'.toNat then some 0x1B else if c == 0x20 then some 0x20
  else if c == '"'.toNat then some 0x22 else if c == '\\'.toNat then some 0x5C
  else if c == '/'.toNat then some 0x2F else if c == 'N'.toNat then some 0x85
  else if c == '_'.toNat then some 0xA0 else if c == 'L'.toNat then some 0x2028
  else if c == 'P'.toNat then some 0x2029 else none

/-- The number of hexadecimal digits after `\x`, `\u` and `\U`. -/
def escapeWidth (c : Nat) : Option Nat :=
  if c == 'x'.toNat then some 2 else if c == 'u'.toNat then some 4
  else if c == 'U'.toNat then some 8 else none

/-- Reads the line breaks inside a quoted scalar, with the blanks around them. -/
def quotedBreaks (s : Scan) (start : Mark) : Except YamlFault (List Nat × Scan) :=
  loop (s.src.size + 1) s []
where
  loop : Nat → Scan → List Nat → Except YamlFault (List Nat × Scan)
    | 0, s, acc => .ok (acc, s)
    | n + 1, s, acc =>
      let (marker, s) := s.separatorAhead
      if marker then
        s.fail (.within "while scanning a quoted scalar" start "found unexpected document separator"
          s.mark)
      else
        let s := s.advanceWhile (fun c => c == 0x20 || c == 0x09)
        if isBreak s.peek then
          let (b, s) := s.lineBreak
          loop n s (acc ++ b)
        else .ok (acc, s)

/-- Reads the part of a quoted scalar up to the next blank or closing quote. -/
def quotedRun (s : Scan) (double : Bool) (start : Mark) : Except YamlFault (List Nat × Scan) :=
  loop (s.src.size + 1) s []
where
  loop : Nat → Scan → List Nat → Except YamlFault (List Nat × Scan)
    | 0, s, acc => .ok (acc, s)
    | n + 1, s, acc => do
      let k := s.runLength (fun c => !(oneOf "'\"\\" c || isBlankOrEnd c)) 0
      let acc := acc ++ s.slice k
      let s := s.advanceBy k
      let c := s.peek
      if !double && c == '\''.toNat && s.peekAt 1 == '\''.toNat then
        loop n (s.advanceBy 2) (acc ++ [c])
      else if (double && c == '\''.toNat) || (!double && (c == '"'.toNat || c == '\\'.toNat)) then
        loop n s.advance (acc ++ [c])
      else if double && c == '\\'.toNat then
        let s := s.advance
        let e := s.peek
        match escapeFor e, escapeWidth e with
        | some r, _ => loop n s.advance (acc ++ [r])
        | none, some w =>
          let s := s.advance
          match (List.range w).find? (fun k => !isHexDigit (s.peekAt k)) with
          | some k =>
            (s.ask (k + 1)).fail (.within "while scanning a double-quoted scalar" start
              (Text.ofString s!"expected escape sequence of {w} hexadecimal numbers, but found " ++
                quoted (s.peekAt k)) s.mark)
          | none =>
            let code := hexNumber (s.slice w)
            if code > 0x10FFFF then
              (s.ask w).fail (.failure (.of .wrongValue "chr() arg not in range(0x110000)"))
            loop n (s.advanceBy w) (acc ++ [code])
        | none, none =>
          if isBreak e then
            let s := s.lineBreak.2
            let (bs, s) ← quotedBreaks s start
            loop n s (acc ++ bs)
          else
            s.fail (.within "while scanning a double-quoted scalar" start
              (Text.ofString "found unknown escape character " ++ quoted e) s.mark)
      else pure (acc, s)

/-- Reads blanks inside a quoted scalar: kept within a line, folded across lines. -/
def quotedSpaces (s : Scan) (start : Mark) : Except YamlFault (List Nat × Scan) := do
  let k := s.runLength (fun c => c == 0x20 || c == 0x09) 0
  let blanks := s.slice k
  let s := s.advanceBy k
  if s.peek == 0 then
    s.fail (.within "while scanning a quoted scalar" start "found unexpected end of stream" s.mark)
  else if isBreak s.peek then
    let (lb, s) := s.lineBreak
    let (bs, s) ← quotedBreaks s start
    let head := if lb != [0x0A] then lb else if bs.isEmpty then [0x20] else []
    pure (head ++ bs, s)
  else pure (blanks, s)

/-- Reads a single- or double-quoted scalar. -/
def scanQuoted (s : Scan) (double : Bool) : Except YamlFault Scan := do
  let start := s.mark
  let quote := s.peek
  let (first, s) ← quotedRun s.advance double start
  let (chunks, s) ← loop double start quote (s.src.size + 1) s first
  let s := s.advance
  pure (s.emit ⟨.scalar ⟨chunks⟩ false, start, s.mark⟩)
where
  loop (double : Bool) (start : Mark) (quote : Nat) :
      Nat → Scan → List Nat → Except YamlFault (List Nat × Scan)
    | 0, s, acc => .ok (acc, s)
    | n + 1, s, acc => do
      if s.peek == quote then pure (acc, s)
      else
        let (sp, s) ← quotedSpaces s start
        let (run, s) ← quotedRun s double start
        loop double start quote n s (acc ++ sp ++ run)

/-! ## Block scalars -/

def headerFault (start : Mark) (problem : Text) (m : Mark) : YamlFault :=
  .within "while scanning a block scalar" start problem m

/-- Reads the header of a block scalar: chomping (`+` keep, `-` strip) and an indentation
indicator 1 to 9, in either order. -/
def blockHeader (s : Scan) (start : Mark) :
    Except YamlFault (Option Bool × Option Nat × Scan) := do
  let zero := fun (s : Scan) => headerFault start
    "expected indentation indicator in the range 1-9, but found 0" s.mark
  let c := s.peek
  let (chomp, incr, s) ← show Except YamlFault (Option Bool × Option Nat × Scan) from do
    if c == '+'.toNat || c == '-'.toNat then
      let s := s.advance
      if isDigit s.peek then
        if s.peek == 0x30 then s.fail (zero s)
        pure (some (c == '+'.toNat), some (s.peek - 0x30), s.advance)
      else pure (some (c == '+'.toNat), none, s)
    else if isDigit c then
      if c == 0x30 then s.fail (zero s)
      let s := s.advance
      let d := s.peek
      if d == '+'.toNat || d == '-'.toNat then pure (some (d == '+'.toNat), some (c - 0x30), s.advance)
      else pure (none, some (c - 0x30), s)
    else pure (none, none, s)
  if !isSpaceOrEnd s.peek then
    s.fail (headerFault start
      (Text.ofString "expected chomping or indentation indicators, but found " ++ quoted s.peek) s.mark)
  let s := s.advanceWhile (· == 0x20)
  let s := if s.peek == '#'.toNat then s.advanceWhile (fun c => !isBreakOrEnd c) else s
  if !isBreakOrEnd s.peek then
    s.fail (headerFault start
      (Text.ofString "expected a comment or a line break, but found " ++ quoted s.peek) s.mark)
  pure (chomp, incr, s.lineBreak.2)

/-- Reads the empty lines before a block scalar's first line, finding the widest indentation. -/
def leadingBreaks (s : Scan) : List Nat × Nat × Mark × Scan :=
  loop (2 * s.src.size + 2) s [] 0 s.mark
where
  loop : Nat → Scan → List Nat → Nat → Mark → List Nat × Nat × Mark × Scan
    | 0, s, acc, most, stop => (acc, most, stop, s)
    | n + 1, s, acc, most, stop =>
      if s.peek == 0x20 then
        let s := s.advance
        loop n s acc (max most s.column) stop
      else if isBreak s.peek then
        let (b, s) := s.lineBreak
        loop n s (acc ++ b) most s.mark
      else (acc, most, stop, s)

/-- Skips spaces while left of column `indent`. -/
def skipIndent (s : Scan) (indent : Int) : Scan :=
  loop (s.src.size + 1) s
where
  loop : Nat → Scan → Scan
    | 0, s => s
    | n + 1, s => if (s.column : Int) < indent && s.peek == 0x20 then loop n s.advance else s

/-- Reads line breaks between a block scalar's lines, skipping indentation up to `indent`. -/
def blockBreaks (s : Scan) (indent : Int) : List Nat × Mark × Scan :=
  let stop := s.mark
  loop (s.src.size + 1) (s.skipIndent indent) [] stop
where
  loop : Nat → Scan → List Nat → Mark → List Nat × Mark × Scan
    | 0, s, acc, stop => (acc, stop, s)
    | n + 1, s, acc, stop =>
      if isBreak s.peek then
        let (b, s) := s.lineBreak
        let stop := s.mark
        loop n (s.skipIndent indent) (acc ++ b) stop
      else (acc, stop, s)

/-- Reads a literal (`|`) or folded (`>`) block scalar. Its indentation is the header's, or that
of its first non-empty line; a folded scalar joins two lines that both start with a non-blank by
a space, unless empty lines stand between them. -/
def scanBlock (s : Scan) (folded : Bool) : Except YamlFault Scan := do
  let start := s.mark
  let (chomp, incr, s) ← blockHeader s.advance start
  let least : Int := max (s.indent + 1) 1
  let (breaks, stop, indent, s) :=
    match incr with
    | none =>
      let (bs, most, stop, s) := leadingBreaks s
      (bs, stop, max least (most : Int), s)
    | some i =>
      let indent := least + i - 1
      let (bs, stop, s) := blockBreaks s indent
      (bs, stop, indent, s)
  let (chunks, lb, breaks, stop, s) := lines folded indent (s.src.size + 1) s [] [] breaks stop
  let chunks := if chomp != some false then chunks ++ lb else chunks
  let chunks := if chomp == some true then chunks ++ breaks else chunks
  pure (s.emit ⟨.scalar ⟨chunks⟩ false, start, stop⟩)
where
  lines (folded : Bool) (indent : Int) :
      Nat → Scan → List Nat → List Nat → List Nat → Mark →
        List Nat × List Nat × List Nat × Mark × Scan
    | 0, s, acc, lb, bs, stop => (acc, lb, bs, stop, s)
    | n + 1, s, acc, lb, bs, stop =>
      if (s.column : Int) == indent && s.peek != 0 then
        let acc := acc ++ bs
        let leading := !(s.peek == 0x20 || s.peek == 0x09)
        let k := s.runLength (fun c => !isBreakOrEnd c) 0
        let acc := acc ++ s.slice k
        let s := s.advanceBy k
        let (lb, s) := s.lineBreak
        let (bs, stop, s) := blockBreaks s indent
        if (s.column : Int) == indent && s.peek != 0 then
          let acc :=
            if folded && lb == [0x0A] && leading && !(s.peek == 0x20 || s.peek == 0x09) then
              (if bs.isEmpty then acc ++ [0x20] else acc)
            else acc ++ lb
          lines folded indent n s acc lb bs stop
        else (acc, lb, bs, stop, s)
      else (acc, lb, bs, stop, s)

/-! ## Reading the next tokens

Each step of reading also gives the calls it nests (`Reach`): routines that look at the text,
make places (`markCalls`) and make tokens. How deep they go depends on what the text holds:
whether blocks close or open, whether a simple key is noted, whether a quoted scalar spans
lines. -/

def markCalls : Reach := Reach.routine [Reach.object]

def lineBreakCalls : Reach := Reach.routine [Reach.leaf]

def skipCalls : Reach := Reach.routine [Reach.leaf, lineBreakCalls]

/-- Closing blocks; each closed block makes a place and a token. -/
def unwindCalls (closes : Bool) : Reach :=
  Reach.routine (if closes then [markCalls, Reach.object] else [])

/-- Noting a possible simple key, when one is allowed: the key of the level is given up, and a
place and the key made. -/
def saveKeyCalls (saved : Bool) : Reach :=
  Reach.routine (if saved then [Reach.leaf, markCalls, Reach.object] else [])

/-- Stepping over an indicator: its start, the step, its end, its token. -/
def indicatorCalls : List Reach := [markCalls, Reach.leaf, markCalls, Reach.object]

/-- Opening a block at the current column in block context: the indentation is raised, and a
new block makes a place and a token. -/
def indentCalls (block opened : Bool) : List Reach :=
  if block then Reach.leaf :: (if opened then [markCalls, Reach.object] else []) else []

def anchorCalls : Reach := Reach.routine [markCalls, Reach.leaf, Reach.leaf, markCalls, Reach.object]

def tagCalls : Reach := Reach.routine [markCalls, Reach.routine [Reach.leaf], markCalls, Reach.object]

def directiveCalls : Reach :=
  Reach.routine [markCalls, Reach.leaf, Reach.routine [Reach.leaf, lineBreakCalls], Reach.object]

/-- Reading a quoted scalar; one that spans lines reads its breaks in a routine of their own. -/
def quotedCalls (lines : Bool) : Reach :=
  Reach.routine ([markCalls, Reach.leaf, Reach.leaf, Reach.routine [Reach.leaf]] ++
    (if lines then [Reach.routine [Reach.leaf, lineBreakCalls, Reach.routine [Reach.leaf, lineBreakCalls]]]
     else []) ++ [Reach.leaf, markCalls, Reach.object])

def plainCalls : Reach :=
  Reach.routine [markCalls, Reach.leaf, markCalls, Reach.routine [Reach.leaf, lineBreakCalls], Reach.object]

def blockCalls : Reach :=
  Reach.routine [markCalls, Reach.leaf, Reach.routine [Reach.leaf], Reach.routine [Reach.leaf, lineBreakCalls],
    Reach.routine [markCalls, Reach.leaf, lineBreakCalls], Reach.object]

/-- Closes every block; whether that queued a token. -/
def unwindAll (s : Scan) : Bool × Scan :=
  let t := s.unwindIndent (-1)
  (t.queue.length > s.queue.length, t)

/-- Reads the end of the stream: all blocks close. -/
def fetchStreamEnd (s : Scan) : Except YamlFault (Scan × Reach) := do
  let (closes, s) := s.unwindAll
  let s ← s.removeKey
  let s := { s with allowSimpleKey := false, keys := [] }
  pure ({ s.emit ⟨.streamEnd, s.mark, s.mark⟩ with done := true },
    Reach.routine [unwindCalls closes, Reach.leaf, markCalls, Reach.object])

/-- Reads a directive or document marker: all blocks close first; `work` is what reading the
token itself calls. -/
def fetchAtColumnZero (s : Scan) (read : Scan → Except YamlFault Scan) (work : List Reach) :
    Except YamlFault (Scan × Reach) := do
  let (closes, s) := s.unwindAll
  let s ← s.removeKey
  let s ← read { s with allowSimpleKey := false }
  pure (s, Reach.routine ([unwindCalls closes, Reach.leaf] ++ work))

def fetchMarker (s : Scan) (kind : TokenKind) : Except YamlFault (Scan × Reach) := do
  let (s, r) ← s.fetchAtColumnZero (fun s => pure (s.emitOver kind 3)) indicatorCalls
  pure (s, Reach.routine [r])

/-- Reads `[` or `{`, which may start a simple key. -/
def fetchFlowStart (s : Scan) (kind : TokenKind) : Except YamlFault (Scan × Reach) := do
  let saved := s.allowSimpleKey
  let s ← s.saveKey
  let s := { s with flowLevel := s.flowLevel + 1, allowSimpleKey := true }
  pure (s.emitOver kind 1, Reach.routine [Reach.routine (saveKeyCalls saved :: indicatorCalls)])

/-- Reads `]` or `}`. -/
def fetchFlowEnd (s : Scan) (kind : TokenKind) : Except YamlFault (Scan × Reach) := do
  let s ← s.removeKey
  let s := { s with flowLevel := s.flowLevel - 1, allowSimpleKey := false }
  pure (s.emitOver kind 1, Reach.routine [Reach.routine (Reach.leaf :: indicatorCalls)])

def fetchFlowEntry (s : Scan) : Except YamlFault (Scan × Reach) := do
  let s ← { s with allowSimpleKey := true }.removeKey
  pure (s.emitOver .flowEntry 1, Reach.routine (Reach.leaf :: indicatorCalls))

/-- Reads `- ` or `?`, which in block context may open a sequence or mapping; `misplaced` is
the fault of one where no simple key is allowed. -/
def fetchEntry (s : Scan) (kind start : TokenKind) (misplaced : String) (allowAfter : Bool) :
    Except YamlFault (Scan × Reach) := do
  let block := s.flowLevel == 0
  let (opened, s) ← show Except YamlFault (Bool × Scan) from do
    if block then
      if !s.allowSimpleKey then s.fail (.found (Text.ofString misplaced) s.mark)
      let (opened, s) := s.addIndent s.column
      pure (opened, if opened then s.emit ⟨start, s.mark, s.mark⟩ else s)
    else pure (false, s)
  let s ← { s with allowSimpleKey := allowAfter }.removeKey
  pure (s.emitOver kind 1, Reach.routine (indentCalls block opened ++ Reach.leaf :: indicatorCalls))

/-- Reads `- `, which in block context may open a sequence. -/
def fetchBlockEntry (s : Scan) : Except YamlFault (Scan × Reach) :=
  s.fetchEntry .blockEntry .blockSequenceStart "sequence entries are not allowed here" true

/-- Reads `?`, which in block context may open a mapping. -/
def fetchKey (s : Scan) : Except YamlFault (Scan × Reach) :=
  s.fetchEntry .key .blockMappingStart "mapping keys are not allowed here" (s.flowLevel == 0)

/-- Inserts a token among those not yet handed out, before token number `number`. -/
def insertAt (s : Scan) (number : Nat) (t : Token) : Scan :=
  let i := number - s.taken
  { s with queue := s.queue.take i ++ [t] ++ s.queue.drop i }

/-- Reads `:`. A pending simple key of this level becomes a key, opening a mapping in block
context when it stands right of the indentation; otherwise the value is of a complex key. -/
def fetchValue (s : Scan) : Except YamlFault (Scan × Reach) := do
  let block := s.flowLevel == 0
  let (s, calls) ← show Except YamlFault (Scan × List Reach) from do
    match s.keys.lookup s.flowLevel with
    | some k =>
      let s := { s with keys := s.keys.filter (·.1 != s.flowLevel) }
      let s := s.insertAt k.tokenNumber ⟨.key, k.mark, k.mark⟩
      let (opened, s) :=
        if block then
          let (opened, s) := s.addIndent k.mark.column
          (opened, if opened then s.insertAt k.tokenNumber ⟨.blockMappingStart, k.mark, k.mark⟩ else s)
        else (false, s)
      pure ({ s with allowSimpleKey := false },
        Reach.object :: (if block then Reach.leaf :: (if opened then [Reach.object] else []) else []))
    | none =>
      if block && !s.allowSimpleKey then
        s.fail (.found "mapping values are not allowed here" s.mark)
      let (opened, s) :=
        if block then
          let (opened, s) := s.addIndent s.column
          (opened, if opened then s.emit ⟨.blockMappingStart, s.mark, s.mark⟩ else s)
        else (false, s)
      let s ← { s with allowSimpleKey := block }.removeKey
      pure (s, indentCalls block opened ++ [Reach.leaf])
  pure (s.emitOver .value 1, Reach.routine (calls ++ indicatorCalls))

/-- Reads a token that may be a simple key and after which none may start: an alias, anchor,
tag, quoted or plain scalar. -/
def fetchKeyable (s : Scan) (read : Scan → Except YamlFault (Scan × Reach)) :
    Except YamlFault (Scan × Reach) := do
  let saved := s.allowSimpleKey
  let s ← s.saveKey
  let (s, r) ← read { s with allowSimpleKey := false }
  pure (s, Reach.routine [saveKeyCalls saved, r])

/-- Reads a quoted scalar, which may be a simple key. -/
def fetchQuoted (s : Scan) (double : Bool) : Except YamlFault (Scan × Reach) := do
  let (s, r) ← s.fetchKeyable fun s => do
    let t ← scanQuoted s double
    pure (t, quotedCalls (t.line != s.line))
  pure (s, Reach.routine [r])

/-- Reads a block scalar, after which a simple key may start. -/
def fetchBlock (s : Scan) (folded : Bool) : Except YamlFault (Scan × Reach) := do
  let s ← { s with allowSimpleKey := true }.removeKey
  pure (← s.scanBlock folded, Reach.routine [Reach.routine [Reach.leaf, blockCalls]])

/-- Whether a document marker stands at the start of this line. There three code points are
looked at, and the one after them when they spell the marker. -/
def markerAhead (s : Scan) (marker : String) : Bool × Scan :=
  if s.column != 0 then (false, s)
  else if s.slice 3 == points marker then (isBlankOrEnd (s.peekAt 3), s.ask 4)
  else (false, s.ask 3)

/-- Whether a plain scalar starts here. -/
def plainAhead (s : Scan) : Bool :=
  let c := s.peek
  !(isBlankOrEnd c || isIndicator c) ||
    (!isBlankOrEnd (s.peekAt 1) &&
      (c == '-'.toNat || (s.flowLevel == 0 && (c == '?'.toNat || c == ':'.toNat))))

/-- Reads the token that starts at the current code point, after blanks and closed blocks. -/
def fetchToken (s : Scan) : Except YamlFault (Scan × Reach) := do
  let c := s.peek
  let blankNext := isBlankOrEnd (s.peekAt 1)
  if c == 0 then s.fetchStreamEnd
  else if c == '%'.toNat && s.column == 0 then s.fetchAtColumnZero scanDirective [directiveCalls]
  else
  let (opens, s) := if c == '-'.toNat then s.markerAhead "---" else (false, s)
  let (closes, s) := if c == '.'.toNat then s.markerAhead "..." else (false, s)
  if opens then s.fetchMarker .documentStart
  else if closes then s.fetchMarker .documentEnd
  else if c == '['.toNat then s.fetchFlowStart .flowSequenceStart
  else if c == 0x7B then s.fetchFlowStart .flowMappingStart
  else if c == ']'.toNat then s.fetchFlowEnd .flowSequenceEnd
  else if c == 0x7D then s.fetchFlowEnd .flowMappingEnd
  else if c == ','.toNat then s.fetchFlowEntry
  else if c == '-'.toNat && blankNext then (s.ask 2).fetchBlockEntry
  else if c == '?'.toNat && s.flowLevel != 0 then s.fetchKey
  else if c == '?'.toNat && blankNext then (s.ask 2).fetchKey
  else if c == ':'.toNat && s.flowLevel != 0 then s.fetchValue
  else if c == ':'.toNat && blankNext then (s.ask 2).fetchValue
  else if c == '*'.toNat then s.fetchKeyable fun s => do pure (← scanAnchor s true, anchorCalls)
  else if c == '&'.toNat then s.fetchKeyable fun s => do pure (← scanAnchor s false, anchorCalls)
  else if c == '!'.toNat then s.fetchKeyable fun s => do pure (← scanTag s, tagCalls)
  else if c == '|'.toNat && s.flowLevel == 0 then s.fetchBlock false
  else if c == '>'.toNat && s.flowLevel == 0 then s.fetchBlock true
  else if c == '\''.toNat then s.fetchQuoted false
  else if c == '"'.toNat then s.fetchQuoted true
  else
  -- after a character that cannot start a plain scalar by itself, the next one is looked at
  let s := if isBlankOrEnd c || isIndicator c then s.ask 2 else s
  if s.plainAhead then s.fetchKeyable fun s => pure (s.scanPlain, plainCalls)
  else
    s.fail (.marked (some "while scanning for the next token") none
      (Text.ofString "found character " ++ quoted c ++ " that cannot start any token") (some s.mark))

/-- Reads the next token or tokens: skips to the next token, gives up stale keys, closes the
blocks left of its column, then reads it. -/
def fetchMore (s : Scan) : Except YamlFault (Scan × Reach) := do
  let s := s.skipToToken
  let s ← s.staleKeys
  let queued := s.queue.length
  let s := s.unwindIndent s.column
  let closes := s.queue.length > queued
  let (s, work) ← s.fetchToken
  pure (s, Reach.routine [skipCalls, Reach.leaf, unwindCalls closes, Reach.leaf, work])

/-- Whether more tokens must be read before the next can be handed out: none is queued, or the
next could still turn out to follow a key. -/
def needMore (s : Scan) : Except YamlFault (Bool × Scan) := do
  if s.done then return (false, s)
  if s.queue.isEmpty then return (true, s)
  let s ← s.staleKeys
  pure ((s.keys.map (·.2.tokenNumber)).min? == some s.taken, s)

/-- The calls of asking whether more tokens are needed: past the end, or with none queued, the
answer is at hand; otherwise stale keys are given up and the next key looked up. -/
def needMoreCalls (s : Scan) : Reach :=
  if s.done || s.queue.isEmpty then Reach.leaf else Reach.routine [Reach.leaf]

/-- Reads the next token or tokens; the code points looked at on the way must not hold a
forbidden character. -/
def fetchRead (s : Scan) : Except YamlFault (Scan × Reach) := do
  let (s, r) ← s.fetchMore
  s.demand s.asked
  pure (s, r)

/-- Reads tokens until the next can be handed out; gives the calls of the request. -/
def fill (s : Scan) : Except YamlFault (Scan × Reach) :=
  loop (s.src.size + 2) s []
where
  loop : Nat → Scan → Reach → Except YamlFault (Scan × Reach)
    | 0, s, r => .ok (s, Reach.routine [r])
    | n + 1, s, r => do
      let r := r.andThen s.needMoreCalls
      let (more, s) ← s.needMore
      if more then
        let (s, work) ← s.fetchRead
        loop n s (r.andThen work)
      else pure (s, Reach.routine [r])

/-- The next token, left in place, and the calls of the request. -/
def peekToken (s : Scan) : Except YamlFault (Token × Scan × Reach) := do
  let (s, r) ← s.fill
  match s.queue with
  | t :: _ => pure (t, s, r)
  | [] => pure (⟨.streamEnd, s.mark, s.mark⟩, s, r)

/-- The next token, handed out, and the calls of the request. -/
def nextToken (s : Scan) : Except YamlFault (Token × Scan × Reach) := do
  let (s, r) ← s.fill
  match s.queue with
  | t :: rest => pure (t, { s with queue := rest, taken := s.taken + 1 }, r)
  | [] => pure (⟨.streamEnd, s.mark, s.mark⟩, s, r)

end Scan

end BlockPlan.Yaml
