import BlockPlan.Yaml.Event
import BlockPlan.Yaml.Pattern

/-!
# Nodes of a YAML document

A document is a graph of `Node`s: scalars, sequences and mappings, each with its tag. The
members of a collection are nodes given by their number in the document, and an alias is the
number of the node its anchor named, so one node may stand in many places and even inside
itself: an anchor is known from the moment its node starts.

A node without a tag, or with the lone `!`, takes a tag by kind: `map` and `seq` for
collections, and for a scalar whose tag may be taken from its text, the first of the YAML 1.1
rules (`implicitTag`) that its text satisfies, tried by its first character: `bool` (yes, no,
true, false, on, off in three cases), `float`, `int` (binary, octal with a leading zero,
decimal, hexadecimal, base 60 with colons), `merge` (`<<`), `null` (`~`, null, the empty text),
`timestamp`, `value` (`=`); any other text is `str`.

`singleDocument` reads a stream that holds at most one document: none gives no document, a
second one is a fault.

Nodes are built by nested calls: a node by a routine, a collection one call deeper, its members
one deeper again, so the members of a collection nested `r` levels down stand `2 r` calls below
the top node. Each asks for its events at its own depth, and the event is read one call below
(`Composer.read`); the host's call limit (`callLimit`) then decides how deep a document may be.
-/

namespace BlockPlan.Yaml

def coreTag (name : String) : Text := Text.ofString ("tag:yaml.org,2002:" ++ name)

/-- A node of a document, with its tag and the place where it starts; members are nodes given
by number. -/
inductive Node where
  | scalar (tag : Text) (value : Text) (start : Mark)
  | sequence (tag : Text) (items : List Nat) (start : Mark)
  | mapping (tag : Text) (pairs : List (Nat × Nat)) (start : Mark)
  deriving Inhabited

namespace Node

def tag : Node → Text
  | .scalar t .. | .sequence t .. | .mapping t .. => t

def start : Node → Mark
  | .scalar _ _ m | .sequence _ _ m | .mapping _ _ m => m

/-- How messages name the kind of a node. -/
def kindName : Node → String
  | .scalar .. => "scalar"
  | .sequence .. => "sequence"
  | .mapping .. => "mapping"

end Node

/-- A document: its nodes by number, and the number of its top node. -/
structure Document where
  nodes : Array Node
  root : Nat
  deriving Inhabited

def Document.node (d : Document) (i : Nat) : Node := d.nodes[i]?.getD default

namespace Resolve

open Pattern

def sign : Pattern := opt (anyOf "-+")

def digit : Pattern := range '0' '9'

def digitMark : Pattern := .char fun c => (0x30 ≤ c && c ≤ 0x39) || c == '_'.toNat

def exponent : Pattern := seqs [anyOf "eE", anyOf "-+", plus digit]

/-- Base-60 places: `:` and one or two digits, the first up to 5. -/
def sixties : Pattern := plus (seqs [word ":", opt (range '0' '5'), digit])

/-- Floating-point numbers. -/
def float : Pattern := alts [
  seqs [sign, digit, .star digitMark, word ".", .star digitMark, opt exponent],
  seqs [word ".", digit, .star digitMark, opt exponent],
  seqs [sign, digit, .star digitMark, sixties, word ".", .star digitMark],
  seqs [sign, word ".", alts [word "inf", word "Inf", word "INF"]],
  seqs [word ".", alts [word "nan", word "NaN", word "NAN"]]]

/-- Whole numbers. -/
def int : Pattern := alts [
  seqs [sign, word "0b", plus (anyOf "01_")],
  seqs [sign, word "0", plus (.char fun c => (0x30 ≤ c && c ≤ 0x37) || c == '_'.toNat)],
  seqs [sign, alts [word "0", seqs [range '1' '9', .star digitMark]]],
  seqs [sign, word "0x", plus (.char fun c =>
    (0x30 ≤ c && c ≤ 0x39) || (0x41 ≤ c && c ≤ 0x46) || (0x61 ≤ c && c ≤ 0x66) || c == '_'.toNat)],
  seqs [sign, range '1' '9', .star digitMark, sixties]]

def blanks : Pattern := .char fun c => c == 0x20 || c == 0x09

/-- Dates, and dates with a time of day. -/
def timestamp : Pattern := alts [
  seqs [digit, digit, digit, digit, word "-", digit, digit, word "-", digit, digit],
  seqs [digit, digit, digit, digit, word "-", digit, opt digit, word "-", digit, opt digit,
    alts [anyOf "Tt", plus blanks],
    digit, opt digit, word ":", digit, digit, word ":", digit, digit,
    opt (seqs [word ".", .star digit]),
    opt (seqs [.star blanks,
      alts [word "Z", seqs [anyOf "-+", digit, opt digit, opt (seqs [word ":", digit, digit])]]])]]

def truthWords : List String :=
  ["yes", "Yes", "YES", "no", "No", "NO", "true", "True", "TRUE", "false", "False", "FALSE",
    "on", "On", "ON", "off", "Off", "OFF"]

/-- The rules for plain scalars: the tag, the characters a text must start with, and the test. -/
def rules : List (String × String × (List Nat → Bool)) := [
  ("bool", "yYnNtTfFoO", fun v => truthWords.any (points · == v)),
  ("float", "-+0123456789.", float.accepts),
  ("int", "-+0123456789", int.accepts),
  ("merge", "<", (· == points "<<")),
  ("null", "~nN", fun v => ["~", "null", "Null", "NULL"].any (points · == v)),
  ("timestamp", "0123456789", timestamp.accepts),
  ("value", "=", (· == points "=")),
  ("yaml", "!&*", fun v => ["!", "&", "*"].any (points · == v))]

end Resolve

/-- The tag a scalar takes from its text. A rule holds for text that it takes as a whole, or
without one line feed at its end. -/
def implicitTag (v : Text) : Text :=
  let holds := fun (test : List Nat → Bool) =>
    test v.points || (v.points.getLast? == some 0x0A && test v.points.dropLast)
  match v.points with
  | [] => coreTag "null"
  | c :: _ =>
    match Resolve.rules.find? (fun r => oneOf r.2.1 c && holds r.2.2) with
    | some r => coreTag r.1
    | none => coreTag "str"

/-- The state of building nodes from events: the event just looked at, the nodes so far, and
the anchors met with the number and start of their nodes. -/
structure Composer where
  events : EventStream
  peeked : Option Event
  nodes : Array Node
  anchors : List (Text × Nat × Mark)
  deriving Inhabited

namespace Composer

/-- The next event, read when none is at hand by the routine of the reader's state one call
below the asking routine at depth `d`. -/
def read (c : Composer) (d : Nat) : Except YamlFault (Event × Composer) := do
  match c.peeked with
  | some e =>
    YamlFault.checkCalls d Reach.leaf
    pure (e, c)
  | none =>
    YamlFault.checkCalls d (Reach.routine [Reach.leaf])
    let (e, p) ← { c.events with base := d + 1, depth := 0 }.next
    pure (e, { c with events := p })

/-- The next event, left in place, asked for by a routine at depth `d`. -/
def peek (c : Composer) (d : Nat) : Except YamlFault (Event × Composer) := do
  let (e, c) ← c.read d
  pure (e, { c with peeked := some e })

/-- The next event, taken, asked for by a routine at depth `d`. -/
def take (c : Composer) (d : Nat) : Except YamlFault (Event × Composer) := do
  let (e, c) ← c.read d
  pure (e, { c with peeked := none })

/-- Starts a node: gives it the next number and notes its anchor. -/
def begin (c : Composer) (anchor : Option Text) (n : Node) : Composer × Nat :=
  let i := c.nodes.size
  let anchors := match anchor with
    | some a => c.anchors ++ [(a, i, n.start)]
    | none => c.anchors
  ({ c with nodes := c.nodes.push n, anchors := anchors }, i)

def finish (c : Composer) (i : Nat) (n : Node) : Composer :=
  { c with nodes := c.nodes.setIfInBounds i n }

/-- The tag of a node: the one given, or the default of its kind for none or the lone `!`. -/
def tagOr (given : Option Text) (default : Text) : Text :=
  match given with
  | some t => if t == Text.ofString "!" then default else t
  | none => default

def tooDeep (m : Mark) : YamlFault := .found "document nested too deep" m

/-- The calls that build a node once its event is at hand: a routine that takes the event,
finds the tag and makes the node. -/
def buildCalls : Reach := Reach.routine [Reach.leaf, Reach.leaf, Reach.object]

mutual

/-- Builds the next node, in a routine at depth `d`, and gives its number; `fuel` bounds the
events left. A collection is built one call deeper, and its members one deeper again. -/
def node : Nat → Nat → Composer → Except YamlFault (Nat × Composer)
  | 0, d, c => do let (e, _) ← c.peek (d + 1); throw (tooDeep e.start)
  | fuel + 1, d, c => do
    YamlFault.checkCalls d Reach.leaf
    let (e, c) ← c.peek (d + 1)
    match e.kind with
    | .alias name =>
      let (_, c) ← c.take (d + 1)
      match c.anchors.lookup name with
      | some (i, _) => pure (i, c)
      | none =>
        throw (.found (Text.ofString "found undefined alias " ++ Text.ofString (reprText name)) e.start)
    | _ =>
      match e.anchor with
      | some a =>
        match c.anchors.lookup a with
        | some (_, first) =>
          throw (.marked (some (Text.ofString ("found duplicate anchor " ++ reprText a ++
            "; first occurrence"))) (some first) "second occurrence" (some e.start))
        | none => pure ()
      | none => pure ()
      YamlFault.checkCalls (d + 1) buildCalls
      let (_, c) ← c.take (d + 2)
      match e.kind with
      | .scalar anchor tag implicit value =>
        let t := match tag with
          | none => if implicit then implicitTag value else coreTag "str"
          | some t => if t == Text.ofString "!" then
              (if implicit then implicitTag value else coreTag "str") else t
        pure ((c.begin anchor (Node.scalar t value e.start)).swap)
      | .sequenceStart anchor tag =>
        let t := tagOr tag (coreTag "seq")
        let (c, i) := c.begin anchor (Node.sequence t [] e.start)
        let (items, c) ← node.items fuel (d + 2) c []
        pure (i, c.finish i (Node.sequence t items e.start))
      | .mappingStart anchor tag =>
        let t := tagOr tag (coreTag "map")
        let (c, i) := c.begin anchor (Node.mapping t [] e.start)
        let (pairs, c) ← node.pairs fuel (d + 2) c []
        pure (i, c.finish i (Node.mapping t pairs e.start))
      | _ => throw (tooDeep e.start)

/-- Builds the items of a sequence up to its end, each in a routine at depth `d`; `acc` holds
those built, reversed. -/
def node.items : Nat → Nat → Composer → List Nat → Except YamlFault (List Nat × Composer)
  | 0, d, c, _ => do let (e, _) ← c.peek d; throw (tooDeep e.start)
  | fuel + 1, d, c, acc => do
    let (e, c) ← c.peek d
    match e.kind with
    | .sequenceEnd =>
      let (_, c) ← c.take d
      pure (acc.reverse, c)
    | _ =>
      let (n, c) ← node fuel d c
      node.items fuel d c (n :: acc)

/-- Builds the pairs of a mapping up to its end, each key and value in a routine at depth `d`;
`acc` holds those built, reversed. -/
def node.pairs : Nat → Nat → Composer → List (Nat × Nat) →
    Except YamlFault (List (Nat × Nat) × Composer)
  | 0, d, c, _ => do let (e, _) ← c.peek d; throw (tooDeep e.start)
  | fuel + 1, d, c, acc => do
    let (e, c) ← c.peek d
    match e.kind with
    | .mappingEnd =>
      let (_, c) ← c.take d
      pure (acc.reverse, c)
    | _ =>
      let (k, c) ← node fuel d c
      let (v, c) ← node fuel d c
      node.pairs fuel d c ((k, v) :: acc)

end

end Composer

def isPrintable (c : Nat) : Bool :=
  c == 0x09 || c == 0x0A || c == 0x0D || (0x20 ≤ c && c ≤ 0x7E) || c == 0x85 ||
    (0xA0 ≤ c && c ≤ 0xD7FF) || (0xE000 ≤ c && c ≤ 0xFFFD) || (0x10000 ≤ c && c ≤ 0x10FFFF)

/-- How many code points of a stream are read before any is looked at. -/
def firstRead : Nat := 8192

/-- How many more code points are read each time more are needed. -/
def laterRead : Nat := 4096

/-- How many code points are read before the one at `i`, when it is read with the first ones or
with a later group. -/
def readBefore (i : Nat) : Nat :=
  if i < firstRead then 0 else firstRead + (i - firstRead) / laterRead * laterRead

/-- Reads the only document of a stream, if it has one, for a routine at call depth `caller`.
The stream is read in groups of code points as the tokens need them, and a character that may
not stand in a stream is refused when its group is read: at once among the first ones, else
when the tokens reach its group. The reading runs four routines below the caller: the document
is read five calls deeper, its top node six. -/
def singleDocument (src : Text) (caller : Nat) : Except YamlFault (Option Document) := do
  let hidden := (src.points.zipIdx.find? (fun e => !isPrintable e.1)).map fun (c, i) =>
    (readBefore i, YamlFault.unacceptable c i)
  match hidden with
  | some (0, fault) => throw fault
  | _ => pure ()
  let arr := src.points.toArray
  let fuel := 4 * arr.size + 16
  let c : Composer := ⟨EventStream.start arr hidden, none, #[], []⟩
  let top := caller + 5
  let (_, c) ← c.take top
  let (e, c) ← c.peek top
  match e.kind with
  | .streamEnd => pure none
  | _ =>
    YamlFault.checkCalls top Reach.leaf
    let (_, c) ← c.take (top + 1)
    let (root, c) ← Composer.node fuel (top + 1) c
    let doc : Document := ⟨c.nodes, root⟩
    let (_, c) ← c.take (top + 1)
    let (e, c) ← c.peek top
    match e.kind with
    | .streamEnd => pure (some doc)
    | _ =>
      let (e, _) ← c.take top
      throw (.marked (some "expected a single document in the stream") (some (doc.node root).start)
        "but found another document" (some e.start))

end BlockPlan.Yaml
