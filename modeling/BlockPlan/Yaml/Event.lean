import BlockPlan.Yaml.Token

/-!
# Events of YAML text

`EventStream.next` reads the tokens of a stream into events, one at a time: the stream and its
documents start and end, and within a document come scalars, aliases, and the starts and ends
of sequences and mappings. The grammar is followed by a state (`Expect`) and a stack of the
states to return to, so the events of a document come out in order and a fault is only found
when the reading gets to it.

A document without `---` is implicit and uses the default tag handles `!` and `!!`
(`tag:yaml.org,2002:`); an explicit one may declare others with `%TAG`. A node's tag is its
handle's expansion followed by its suffix. A scalar may take its tag from its text only when it
was plain and untagged, or tagged with the lone `!`. Where a node is required but none stands,
an empty plain scalar is read.

The reading runs as nested calls under the host's call limit (`callLimit`): each event is read
by the routine of its state, at depth `base`, which reaches a node through a routine of its own
and makes the event as an object. Every token request and every event is checked against the
limit at the depth it is made (`calls`), so that a document nested too deep fails where the
host fails, with the host's message.
-/

namespace BlockPlan.Yaml

/-- The kinds of events. -/
inductive EventKind where
  | streamStart
  | streamEnd
  | documentStart
  | documentEnd
  | alias (anchor : Text)
  /-- A scalar: its anchor, its tag, whether its tag may be taken from its text, its text. -/
  | scalar (anchor tag : Option Text) (implicit : Bool) (value : Text)
  | sequenceStart (anchor tag : Option Text)
  | sequenceEnd
  | mappingStart (anchor tag : Option Text)
  | mappingEnd
  deriving Inhabited

/-- An event and the places where it starts and ends. -/
structure Event where
  kind : EventKind
  start : Mark
  stop : Mark
  deriving Inhabited

/-- The anchor an event gives its node, if any. -/
def Event.anchor (e : Event) : Option Text :=
  match e.kind with
  | .scalar a .. | .sequenceStart a _ | .mappingStart a _ => a
  | _ => none

/-- What the reading of events expects next. -/
inductive Expect where
  | streamStart
  | implicitDocumentStart
  | documentStart
  | documentEnd
  | documentContent
  | blockNode
  | blockSequenceFirstEntry
  | blockSequenceEntry
  | indentlessSequenceEntry
  | blockMappingFirstKey
  | blockMappingKey
  | blockMappingValue
  | flowSequenceFirstEntry
  | flowSequenceEntry
  | flowPairKey
  | flowPairValue
  | flowPairEnd
  | flowMappingFirstKey
  | flowMappingKey
  | flowMappingValue
  | flowMappingEmptyValue
  | finished
  deriving Inhabited, BEq

/-- The state of reading events from tokens. -/
structure EventStream where
  scan : Scan
  expect : Expect
  /-- The states to return to, innermost first. -/
  states : List Expect
  /-- Where the open collections began, innermost first. -/
  marks : List Mark
  /-- The tag handles of the current document and what they expand to. -/
  handles : List (Text × Text)
  /-- The call depth of the routine that reads the current event. -/
  base : Nat
  /-- How many calls deeper than `base` the reading now runs. -/
  depth : Nat
  deriving Inhabited

def defaultHandles : List (Text × Text) :=
  [(Text.ofString "!", Text.ofString "!"), (Text.ofString "!!", Text.ofString "tag:yaml.org,2002:")]

def quotedId (k : TokenKind) : Text := Text.ofString ("'" ++ k.id ++ "'")

def emptyScalar (m : Mark) : Event := ⟨.scalar none none true Text.empty, m, m⟩

namespace EventStream

def start (src : Array Nat) (hidden : Option (Nat × YamlFault)) : EventStream :=
  ⟨Scan.start src hidden, .streamStart, [], [], defaultHandles, 0, 0⟩

/-- Checks work called from the running routine against the call limit. -/
def calls (p : EventStream) (r : Reach) : Except YamlFault Unit :=
  YamlFault.checkCalls (p.base + p.depth + 1) r

def descend (p : EventStream) : Except YamlFault EventStream := do
  p.calls Reach.leaf
  pure { p with depth := p.depth + 1 }

/-- Gives event `e`, made by the running routine, and goes on with `p`. -/
def emit (p : EventStream) (e : Event) : Except YamlFault (Event × EventStream) := do
  p.calls Reach.object
  pure (e, p)

/-- Gives an empty plain scalar at `m`, made by a routine of its own, and goes on with `p`. -/
def emitEmpty (p : EventStream) (m : Mark) : Except YamlFault (Event × EventStream) := do
  p.calls (Reach.routine [Reach.object])
  pure (emptyScalar m, p)

/-- The next token, left in place. -/
def peekToken (p : EventStream) : Except YamlFault (Token × EventStream) := do
  let (t, s, r) ← p.scan.peekToken
  p.calls r
  pure (t, { p with scan := s })

/-- The next token, taken. -/
def nextToken (p : EventStream) : Except YamlFault (Token × EventStream) := do
  let (t, s, r) ← p.scan.nextToken
  p.calls r
  pure (t, { p with scan := s })

/-- Returns to the state on top of the stack. -/
def popState (p : EventStream) : EventStream :=
  match p.states with
  | e :: rest => { p with expect := e, states := rest }
  | [] => { p with expect := .finished }

def popMark (p : EventStream) : EventStream := { p with marks := p.marks.drop 1 }

/-- Continues with `e` once the node now read is done. -/
def push (p : EventStream) (e : Expect) : EventStream := { p with states := e :: p.states }

def goTo (p : EventStream) (e : Expect) : EventStream := { p with expect := e }

def openMark (p : EventStream) : Mark := p.marks.headD default

/-- Reads a node's anchor and tag, in either order: the anchor, the tag with its handle and the
place of the tag, and the places where the properties start and end. -/
def properties (p : EventStream) :
    Except YamlFault
      (Option Text × Option (Option Text × Text) × Option (Mark × Mark) × Mark × EventStream) := do
  let (t, p) ← p.peekToken
  match t.kind with
  | .anchor a =>
    let (t, p) ← p.nextToken
    let (t2, p) ← p.peekToken
    match t2.kind with
    | .tag h s =>
      let (t2, p) ← p.nextToken
      pure (some a, some (h, s), some (t.start, t2.stop), t2.start, p)
    | _ => pure (some a, none, some (t.start, t.stop), t.start, p)
  | .tag h s =>
    let (t, p) ← p.nextToken
    let (t2, p) ← p.peekToken
    match t2.kind with
    | .anchor a =>
      let (t2, p) ← p.nextToken
      pure (some a, some (h, s), some (t.start, t2.stop), t.start, p)
    | _ => pure (none, some (h, s), some (t.start, t.stop), t.start, p)
  | _ => pure (none, none, none, t.start, p)

/-- Reads a node: an alias, or a scalar or the start of a collection with its properties.
`block` allows block collections, `indentless` a sequence of `- ` entries at the indentation
of its mapping key. The node is read by a routine of its own. -/
def node (p : EventStream) (block indentless : Bool) : Except YamlFault (Event × EventStream) := do
  let p ← p.descend
  let (t, p) ← p.peekToken
  match t.kind with
  | .alias name =>
    let (t, p) ← p.nextToken
    p.popState.emit ⟨.alias name, t.start, t.stop⟩
  | _ =>
    let (anchor, rawTag, span, tagMark, p) ← p.properties
    let (t, p) ← p.peekToken
    let (start, stop) := span.getD (t.start, t.start)
    let tag ← match rawTag with
      | none => pure none
      | some (none, suffix) => pure (some suffix)
      | some (some handle, suffix) =>
        match p.handles.lookup handle with
        | some expansion => pure (some (expansion ++ suffix))
        | none =>
          throw (.within "while parsing a node" start
            (Text.ofString "found undefined tag handle " ++ Text.ofString (reprText handle)) tagMark)
    let lone := tag == some (Text.ofString "!")
    match t.kind with
    | .blockEntry =>
      if indentless then
        (p.goTo .indentlessSequenceEntry).emit ⟨.sequenceStart anchor tag, start, t.stop⟩
      else if anchor.isSome || tag.isSome then
        p.popState.emit ⟨.scalar anchor tag (tag.isNone || lone) Text.empty, start, stop⟩
      else
        throw (.within (if block then "while parsing a block node" else "while parsing a flow node")
          start (Text.ofString "expected the node content, but found " ++ quotedId t.kind) t.start)
    | .scalar value plain =>
      let (t, p) ← p.nextToken
      p.popState.emit ⟨.scalar anchor tag ((plain && tag.isNone) || lone) value, start, t.stop⟩
    | .flowSequenceStart =>
      (p.goTo .flowSequenceFirstEntry).emit ⟨.sequenceStart anchor tag, start, t.stop⟩
    | .flowMappingStart =>
      (p.goTo .flowMappingFirstKey).emit ⟨.mappingStart anchor tag, start, t.stop⟩
    | k =>
      let blockSeq := match k with | .blockSequenceStart => true | _ => false
      let blockMap := match k with | .blockMappingStart => true | _ => false
      if block && blockSeq then
        (p.goTo .blockSequenceFirstEntry).emit ⟨.sequenceStart anchor tag, start, t.start⟩
      else if block && blockMap then
        (p.goTo .blockMappingFirstKey).emit ⟨.mappingStart anchor tag, start, t.start⟩
      else if anchor.isSome || tag.isSome then
        p.popState.emit ⟨.scalar anchor tag (tag.isNone || lone) Text.empty, start, stop⟩
      else
        throw (.within (if block then "while parsing a block node" else "while parsing a flow node")
          start (Text.ofString "expected the node content, but found " ++ quotedId k) t.start)

/-- Whether a token is of one of the kinds that end an entry or key. -/
def isEntryEnd (k : TokenKind) (key value blockEnd flowEntry seqEnd mapEnd blockEntry : Bool) :
    Bool :=
  match k with
  | .key => key
  | .value => value
  | .blockEnd => blockEnd
  | .flowEntry => flowEntry
  | .flowSequenceEnd => seqEnd
  | .flowMappingEnd => mapEnd
  | .blockEntry => blockEntry
  | _ => false

/-- Reads the directives before an explicit document: at most one `%YAML` of version 1, and
`%TAG` handles declared once each, to which the default handles are added. -/
def directives (p : EventStream) : Except YamlFault EventStream :=
  loop (p.scan.src.size + 1) none [] p
where
  loop : Nat → Option (Nat × Nat) → List (Text × Text) → EventStream → Except YamlFault EventStream
    | 0, _, handles, p => .ok { p with handles := handles }
    | n + 1, version, handles, p => do
      let (t, p) ← p.peekToken
      match t.kind with
      | .directive _ value =>
        let (t, p) ← p.nextToken
        match value with
        | .version major minor =>
          if version.isSome then throw (.found "found duplicate YAML directive" t.start)
          if major != 1 then
            throw (.found "found incompatible YAML document (version 1.* is required)" t.start)
          loop n (some (major, minor)) handles p
        | .tagHandle handle uri =>
          if (handles.lookup handle).isSome then
            throw (.found (Text.ofString "duplicate tag handle " ++ Text.ofString (reprText handle))
              t.start)
          loop n version (handles ++ [(handle, uri)]) p
        | .other => loop n version handles p
      | _ =>
        let missing := defaultHandles.filter fun d => (handles.lookup d.1).isNone
        pure { p with handles := handles ++ missing }

/-- Skips document end markers. -/
def skipDocumentEnds (p : EventStream) : Except YamlFault EventStream :=
  loop (p.scan.src.size + 1) p
where
  loop : Nat → EventStream → Except YamlFault EventStream
    | 0, p => .ok p
    | n + 1, p => do
      let (t, p) ← p.peekToken
      match t.kind with
      | .documentEnd => loop n (← p.nextToken).2
      | _ => pure p

/-- Reads the start of an explicit document, or the end of the stream. The directives are read
by a routine of their own. -/
def documentStart (p : EventStream) : Except YamlFault (Event × EventStream) := do
  let p ← p.skipDocumentEnds
  let (t, p) ← p.peekToken
  match t.kind with
  | .streamEnd =>
    let (t, p) ← p.nextToken
    (p.goTo .finished).emit ⟨.streamEnd, t.start, t.stop⟩
  | _ =>
    let start := t.start
    let q ← (← p.descend).directives
    let p := { q with depth := p.depth }
    let (t, p) ← p.peekToken
    match t.kind with
    | .documentStart =>
      let (t, p) ← p.nextToken
      ((p.push .documentEnd).goTo .documentContent).emit ⟨.documentStart, start, t.stop⟩
    | k =>
      throw (.found (Text.ofString "expected '<document start>', but found " ++ quotedId k) t.start)

/-- Reads an entry of a block sequence, or its end. -/
def blockSequenceEntry (p : EventStream) : Except YamlFault (Event × EventStream) := do
  let (t, p) ← p.peekToken
  match t.kind with
  | .blockEntry =>
    let (t, p) ← p.nextToken
    let (t2, p) ← p.peekToken
    if isEntryEnd t2.kind false false true false false false true then
      (p.goTo .blockSequenceEntry).emitEmpty t.stop
    else (← (p.push .blockSequenceEntry).descend).node true false
  | .blockEnd =>
    let (t, p) ← p.nextToken
    p.popState.popMark.emit ⟨.sequenceEnd, t.start, t.stop⟩
  | k =>
    throw (.within "while parsing a block collection" p.openMark
      (Text.ofString "expected <block end>, but found " ++ quotedId k) t.start)

/-- Reads an entry of a sequence without indentation, or its end. -/
def indentlessEntry (p : EventStream) : Except YamlFault (Event × EventStream) := do
  let (t, p) ← p.peekToken
  match t.kind with
  | .blockEntry =>
    let (t, p) ← p.nextToken
    let (t2, p) ← p.peekToken
    if isEntryEnd t2.kind true true true false false false true then
      (p.goTo .indentlessSequenceEntry).emitEmpty t.stop
    else (← (p.push .indentlessSequenceEntry).descend).node true false
  | _ => p.popState.emit ⟨.sequenceEnd, t.start, t.start⟩

/-- Reads a key of a block mapping, or its end. -/
def blockMappingKey (p : EventStream) : Except YamlFault (Event × EventStream) := do
  let (t, p) ← p.peekToken
  match t.kind with
  | .key =>
    let (t, p) ← p.nextToken
    let (t2, p) ← p.peekToken
    if isEntryEnd t2.kind true true true false false false false then
      (p.goTo .blockMappingValue).emitEmpty t.stop
    else (← (p.push .blockMappingValue).descend).node true true
  | .blockEnd =>
    let (t, p) ← p.nextToken
    p.popState.popMark.emit ⟨.mappingEnd, t.start, t.stop⟩
  | k =>
    throw (.within "while parsing a block mapping" p.openMark
      (Text.ofString "expected <block end>, but found " ++ quotedId k) t.start)

/-- Reads a value of a block mapping, empty when none is given. -/
def blockMappingValue (p : EventStream) : Except YamlFault (Event × EventStream) := do
  let (t, p) ← p.peekToken
  match t.kind with
  | .value =>
    let (t, p) ← p.nextToken
    let (t2, p) ← p.peekToken
    if isEntryEnd t2.kind true true true false false false false then
      (p.goTo .blockMappingKey).emitEmpty t.stop
    else (← (p.push .blockMappingKey).descend).node true true
  | _ => (p.goTo .blockMappingKey).emitEmpty t.start

/-- Reads an entry of a flow sequence, or its end; entries after the first follow a `,`. A
`? ` entry is a mapping of one pair. -/
def flowSequenceEntry (p : EventStream) (first : Bool) : Except YamlFault (Event × EventStream) := do
  let (t, p) ← p.peekToken
  let closing := fun (p : EventStream) => do
    let (t, p) ← p.nextToken
    p.popState.popMark.emit ⟨EventKind.sequenceEnd, t.start, t.stop⟩
  match t.kind with
  | .flowSequenceEnd => closing p
  | k =>
    let p ← show Except YamlFault EventStream from do
      if first then pure p
      else
        match k with
        | .flowEntry => pure (← p.nextToken).2
        | _ =>
          throw (.within "while parsing a flow sequence" p.openMark
            (Text.ofString "expected ',' or ']', but got " ++ quotedId k) t.start)
    let (t, p) ← p.peekToken
    match t.kind with
    | .key => (p.goTo .flowPairKey).emit ⟨.mappingStart none none, t.start, t.stop⟩
    | .flowSequenceEnd => closing p
    | _ => (← (p.push .flowSequenceEntry).descend).node false false

/-- Reads the key of a one-pair mapping in a flow sequence. -/
def flowPairKey (p : EventStream) : Except YamlFault (Event × EventStream) := do
  let (t, p) ← p.nextToken
  let (t2, p) ← p.peekToken
  if isEntryEnd t2.kind false true false true true false false then
    (p.goTo .flowPairValue).emitEmpty t.stop
  else (← (p.push .flowPairValue).descend).node false false

/-- Reads the value of a one-pair mapping in a flow sequence. -/
def flowPairValue (p : EventStream) : Except YamlFault (Event × EventStream) := do
  let (t, p) ← p.peekToken
  match t.kind with
  | .value =>
    let (t, p) ← p.nextToken
    let (t2, p) ← p.peekToken
    if isEntryEnd t2.kind false false false true true false false then
      (p.goTo .flowPairEnd).emitEmpty t.stop
    else (← (p.push .flowPairEnd).descend).node false false
  | _ => (p.goTo .flowPairEnd).emitEmpty t.start

/-- Reads a key of a flow mapping, or its end; keys after the first follow a `,`. -/
def flowMappingKey (p : EventStream) (first : Bool) : Except YamlFault (Event × EventStream) := do
  let (t, p) ← p.peekToken
  let closing := fun (p : EventStream) => do
    let (t, p) ← p.nextToken
    p.popState.popMark.emit ⟨EventKind.mappingEnd, t.start, t.stop⟩
  match t.kind with
  | .flowMappingEnd => closing p
  | k =>
    let p ← show Except YamlFault EventStream from do
      if first then pure p
      else
        match k with
        | .flowEntry => pure (← p.nextToken).2
        | _ =>
          throw (.within "while parsing a flow mapping" p.openMark
            (Text.ofString "expected ',' or '\x7d', but got " ++ quotedId k) t.start)
    let (t, p) ← p.peekToken
    match t.kind with
    | .key =>
      let (t, p) ← p.nextToken
      let (t2, p) ← p.peekToken
      if isEntryEnd t2.kind false true false true false true false then
        (p.goTo .flowMappingValue).emitEmpty t.stop
      else (← (p.push .flowMappingValue).descend).node false false
    | .flowMappingEnd => closing p
    | _ => (← (p.push .flowMappingEmptyValue).descend).node false false

/-- Reads a value of a flow mapping, empty when none is given. -/
def flowMappingValue (p : EventStream) : Except YamlFault (Event × EventStream) := do
  let (t, p) ← p.peekToken
  match t.kind with
  | .value =>
    let (t, p) ← p.nextToken
    let (t2, p) ← p.peekToken
    if isEntryEnd t2.kind false false false true false true false then
      (p.goTo .flowMappingKey).emitEmpty t.stop
    else (← (p.push .flowMappingKey).descend).node false false
  | _ => (p.goTo .flowMappingKey).emitEmpty t.start

/-- The next event, read by the routine of the current state at depth `base`; a state that
begins its collection reads the first entry in a routine of its own. -/
def next (p : EventStream) : Except YamlFault (Event × EventStream) := do
  match p.expect with
  | .streamStart =>
    let (t, p) ← p.nextToken
    (p.goTo .implicitDocumentStart).emit ⟨.streamStart, t.start, t.stop⟩
  | .implicitDocumentStart =>
    let (t, p) ← p.peekToken
    match t.kind with
    | .directive .. | .documentStart | .streamEnd => (← p.descend).documentStart
    | _ =>
      let p := { p with handles := defaultHandles }
      ((p.push .documentEnd).goTo .blockNode).emit ⟨.documentStart, t.start, t.start⟩
  | .documentStart => p.documentStart
  | .documentEnd =>
    let (t, p) ← p.peekToken
    match t.kind with
    | .documentEnd =>
      let (t2, p) ← p.nextToken
      (p.goTo .documentStart).emit ⟨.documentEnd, t.start, t2.stop⟩
    | _ => (p.goTo .documentStart).emit ⟨.documentEnd, t.start, t.start⟩
  | .documentContent =>
    let (t, p) ← p.peekToken
    match t.kind with
    | .directive .. | .documentStart | .documentEnd | .streamEnd =>
      p.popState.emitEmpty t.start
    | _ => (← p.descend).node true false
  | .blockNode => p.node true false
  | .blockSequenceFirstEntry =>
    let (t, p) ← p.nextToken
    (← { p with marks := t.start :: p.marks }.descend).blockSequenceEntry
  | .blockSequenceEntry => p.blockSequenceEntry
  | .indentlessSequenceEntry => p.indentlessEntry
  | .blockMappingFirstKey =>
    let (t, p) ← p.nextToken
    (← { p with marks := t.start :: p.marks }.descend).blockMappingKey
  | .blockMappingKey => p.blockMappingKey
  | .blockMappingValue => p.blockMappingValue
  | .flowSequenceFirstEntry =>
    let (t, p) ← p.nextToken
    (← { p with marks := t.start :: p.marks }.descend).flowSequenceEntry true
  | .flowSequenceEntry => p.flowSequenceEntry false
  | .flowPairKey => p.flowPairKey
  | .flowPairValue => p.flowPairValue
  | .flowPairEnd =>
    let (t, p) ← p.peekToken
    (p.goTo .flowSequenceEntry).emit ⟨.mappingEnd, t.start, t.start⟩
  | .flowMappingFirstKey =>
    let (t, p) ← p.nextToken
    (← { p with marks := t.start :: p.marks }.descend).flowMappingKey true
  | .flowMappingKey => p.flowMappingKey false
  | .flowMappingValue => p.flowMappingValue
  | .flowMappingEmptyValue =>
    let (t, p) ← p.peekToken
    (p.goTo .flowMappingKey).emitEmpty t.start
  | .finished =>
    let (t, p) ← p.peekToken
    pure (⟨.streamEnd, t.start, t.stop⟩, p)

end EventStream

end BlockPlan.Yaml
