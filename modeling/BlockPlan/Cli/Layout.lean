import BlockPlan.Text.Basic

/-!
# Help text layout

Help pages are laid out for a width of 78 columns. Text is filled greedily (`fillLines`):
words and the blanks between them are placed on a line while they fit, a line never starts
or ends with blanks (the very first line may start with them), and a word longer than a whole
line is cut. Paragraphs are separated by empty lines; the lines of one paragraph are joined
before filling (`wrapParagraphs`).

A command's short help (`shortHelp`) is the first paragraph of its help, cut after the first
sentence that fits, or cut to fit with `...`. A definition list (`definitionList`) gives each
term a column as wide as the widest term (at most 30), two columns of space, and its
definition filled into the rest of the width.
-/

namespace BlockPlan.Cli

def pageWidth : Nat := 78

def isBlank (c : Nat) : Bool := c == 0x20 || c == 0x09 || c == 0x0A || c == 0x0D

/-- Text split into runs of blanks and runs of other characters, in order. -/
def chunks (cs : List Nat) : List (List Nat) :=
  go cs.length cs
where
  go : Nat → List Nat → List (List Nat)
    | 0, _ => []
    | _, [] => []
    | n + 1, c :: rest =>
      let same := (c :: rest).takeWhile fun d => isBlank d == isBlank c
      same :: go n ((c :: rest).drop same.length)

def isBlankChunk (c : List Nat) : Bool := c.all isBlank

/-- Takes chunks onto a line while they fit in `room`; gives the line and the chunks left. -/
def takeFitting (room : Nat) : List (List Nat) → List (List Nat) × List (List Nat)
  | [] => ([], [])
  | c :: rest =>
    if c.length ≤ room then
      let (line, left) := takeFitting (room - c.length) rest
      (c :: line, left)
    else ([], c :: rest)

/-- Fills chunks into lines of at most `width` columns, the first after `first`, the others
after `later`. -/
def fillChunks (width : Nat) (first later : List Nat) (cs : List (List Nat)) : List (List Nat) :=
  go (cs.foldl (fun n c => n + c.length + 1) 1) [] cs
where
  go : Nat → List (List Nat) → List (List Nat) → List (List Nat)
    | 0, lines, _ => lines.reverse
    | _, lines, [] => lines.reverse
    | n + 1, lines, cs =>
      let indent := if lines.isEmpty then first else later
      let room := width - indent.length
      let cs := match cs with
        | c :: rest => if !lines.isEmpty && isBlankChunk c then rest else cs
        | [] => []
      let (line, left) := takeFitting room cs
      let used := (line.map List.length).foldl (· + ·) 0
      let (line, left) :=
        match left with
        | c :: rest =>
          if c.length > room then
            let space := max (room - used) 1
            (line ++ [c.take space], c.drop space :: rest)
          else (line, left)
        | [] => (line, left)
      let line := match line.getLast? with
        | some c => if isBlankChunk c then line.dropLast else line
        | none => line
      if line.isEmpty then go n lines left
      else go n ((indent ++ line.flatten) :: lines) left

/-- Fills text into lines of at most `width` columns. -/
def fillLines (width : Nat) (first later : String) (text : List Nat) : List Text :=
  (fillChunks width (first.toList.map Char.toNat) (later.toList.map Char.toNat) (chunks text)).map
    Text.mk

/-- The paragraphs of help text: runs of non-empty lines, each joined by spaces after the first
line's leading blanks are dropped. -/
def paragraphs (text : Text) : List (List Nat) :=
  let lines := (text.splitOn 0x0A).map (·.points)
  let (done, current) := lines.foldl (fun (acc : List (List Nat) × List (List Nat)) line =>
    if line.isEmpty then
      (if acc.2.isEmpty then acc.1 else acc.1 ++ [joinLines acc.2], [])
    else (acc.1, acc.2 ++ [if acc.2.isEmpty then line.dropWhile isBlank else line])) ([], [])
  if current.isEmpty then done else done ++ [joinLines current]
where
  joinLines (ls : List (List Nat)) : List Nat := (ls.intersperse [0x20]).flatten

/-- Help text filled paragraph by paragraph under an indent, paragraphs apart by an empty line. -/
def wrapParagraphs (width : Nat) (indent : String) (text : Text) : Text :=
  Text.join "\n\n" ((paragraphs text).map fun p => Text.join "\n" (fillLines width indent indent p))

def wordsOf (cs : List Nat) : List (List Nat) := (chunks cs).filter fun c => !isBlankChunk c

/-- How reading words against a limit ends: all fit, a sentence ends at a word, or the words
must be cut at a word with the length so far. -/
inductive ShortCut where
  | whole
  | sentence (i : Nat)
  | cut (i : Nat) (total : Nat)

/-- The short help of a command: its first paragraph up to its first sentence, within
`limit` columns, else cut to fit with `...`. -/
def shortHelp (help : Text) (limit : Nat) : Text :=
  let first := (paragraphs help).headD []
  let ws := wordsOf first
  let join := fun (xs : List (List Nat)) => Text.mk ((xs.intersperse [0x20]).flatten)
  match scan ws 0 0 with
  | .whole => join ws
  | .sentence i => join (ws.take (i + 1))
  | .cut i total =>
    let keep := back ws i (total + 3)
    join (ws.take keep) ++ Text.ofString "..."
where
  /-- The outcome of reading words against the limit. -/
  scan : List (List Nat) → Nat → Nat → ShortCut
    | [], _, _ => .whole
    | w :: rest, i, total =>
      let total := total + w.length + (if i > 0 then 1 else 0)
      if total > limit then .cut i total
      else if w.getLast? == some '.'.toNat then .sentence i
      else if total == limit && !rest.isEmpty then .cut i total
      else scan rest (i + 1) total
  /-- Drops words from index `i` back until the kept ones and `...` fit. -/
  back (ws : List (List Nat)) : Nat → Nat → Nat
    | 0, _ => 0
    | i + 1, total =>
      let total := total - ((ws.getD (i + 1) []).length + 1)
      if total ≤ limit then i + 1 else back ws i total

/-- A definition list under an indent: terms in a column as wide as the widest (at most 30),
definitions filled to the right, longer terms on a line of their own. -/
def definitionList (indent : Nat) (rows : List (Text × Text)) : Text :=
  let widest := (rows.map (·.1.length)).foldl max 0
  let column := min widest 30 + 2
  let pad := fun (n : Nat) => String.ofList (List.replicate n ' ')
  let textWidth := max (pageWidth - column - 2) 10
  Text.join "" (rows.map fun (term, defn) =>
    let head := Text.ofString (pad indent) ++ term
    if defn.isEmpty then head ++ Text.ofString "\n"
    else
      let lead :=
        if term.length ≤ column - 2 then head ++ Text.ofString (pad (column - term.length))
        else head ++ Text.ofString ("\n" ++ pad (column + indent))
      let lines := (wrapParagraphs textWidth "" defn).splitOn 0x0A
      match lines with
      | [] => lead ++ Text.ofString "\n"
      | l :: more =>
        lead ++ l ++ Text.ofString "\n" ++
          Text.join "" (more.map fun m => Text.ofString (pad (column + indent)) ++ m ++ Text.ofString "\n"))

end BlockPlan.Cli
