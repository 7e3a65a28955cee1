import BlockPlan.Cli.Layout
import BlockPlan.Value.Show

/-!
# Commands and their arguments

A `Command` declares its options (`Switch`) and positional arguments (`Operand`). Its
arguments are read (`Command.parse`) in the usual way of command lines:

* `--` ends the options; a word of two or more characters starting with `-` is an option;
  other words are operands, and for a command that runs subcommands the first one ends the
  options.
* A long option (one not of the form `-x`) may carry its value after `=`, or take the next
  word, whatever it looks like. An option given again replaces its value, or, when it may be
  repeated, adds one more. A word that names no long option and does not start with `--`
  is read as short options `-x`, several of which may stand in one word; a short option that
  takes a value takes the rest of the word, or else the next word.
* An unknown option is refused, naming up to three long options that look like it
  (`closeMatches`), unless the command keeps unknown options as operands.
* The operands fill the declared arguments in order; any left over are refused.

The help page of a command shows its usage, its help text and its options in two columns.
-/

namespace BlockPlan.Cli

/-- An option: the parameter it sets, its names, whether it takes a value (then shown as
`metavar` in help), its help, whether it acts before every other parameter, and whether it may
be given many times, each value kept. -/
structure Switch where
  key : String
  names : List String
  takesValue : Bool
  metavar : String
  help : String
  eager : Bool
  multiple : Bool
  deriving Inhabited

/-- A positional argument: the parameter it sets and whether it must be given. -/
structure Operand where
  key : String
  required : Bool
  deriving Inhabited

/-- The usage name of a positional argument: its parameter in capitals, in brackets when it
may be left out. -/
def Operand.metavar (o : Operand) : String :=
  let name := o.key.toUpper
  if o.required then name else "[" ++ name ++ "]"

/-- A command: its path in usage lines, its help, its options and arguments, whether options
it does not know stand as operands, whether options may follow operands, and what its usage
shows after the arguments. -/
structure Command where
  path : String
  help : String
  switches : List Switch
  operands : List Operand
  keepsUnknown : Bool
  interspersed : Bool
  tail : List String
  deriving Inhabited

/-- The prefix of an option name: `--`, `-`, or none for a name that starts with a letter or
digit. -/
def namePrefix (name : String) : String :=
  match name.toList with
  | c :: d :: _ =>
    if c.isAlphanum then "" else if d == c then String.ofList [c, c] else String.ofList [c]
  | [c] => if c.isAlphanum then "" else String.ofList [c]
  | [] => ""

/-- Whether an option name is short: a one-character prefix and one character. -/
def isShortName (name : String) : Bool :=
  (namePrefix name).length == 1 && name.length == 2

/-- A value given to an option: a flag that was set, a value, or the values of an option that
may be repeated. -/
inductive Given where
  | flag
  | value (t : Text)
  | values (ts : List Text)
  deriving Inhabited

/-- Why the arguments of a command are refused. -/
inductive UsageError where
  | noSuchOption (name : Text) (possibilities : List Text)
  | needsValue (name : Text)
  | takesNoValue (name : Text)
  | missingOperand (metavar : String)
  | extraOperands (args : List Text)
  | noSuchCommand (name : Text) (possibilities : List Text)
  | missingCommand
  deriving Inhabited

def quoteName (t : Text) : Text := Text.ofString (reprText t)

/-- The suggestion after a name that is not known: none, the one close name, or the close
names in order. -/
def suggestion : List Text → Text
  | [] => Text.empty
  | [p] => Text.ofString " Did you mean " ++ quoteName p ++ Text.ofString "?"
  | ps =>
    Text.ofString " (Did you mean one of: " ++ Text.join ", " ((ps.mergeSort Text.le).map quoteName) ++
      Text.ofString "?)"

/-- Whether a usage error is reported with the usage of its command: all are but those about
the value of an option, which are found while the option is read. -/
def UsageError.showsUsage : UsageError → Bool
  | .needsValue _ | .takesNoValue _ => false
  | _ => true

/-- The message of a usage error. -/
def UsageError.message : UsageError → Text
  | .noSuchOption name ps =>
    Text.ofString "No such option " ++ quoteName name ++ Text.ofString "." ++ suggestion ps
  | .needsValue name => Text.ofString "Option " ++ quoteName name ++ Text.ofString " requires an argument."
  | .takesNoValue name =>
    Text.ofString "Option " ++ quoteName name ++ Text.ofString " does not take a value."
  | .missingOperand m => Text.ofString ("Missing argument '" ++ m ++ "'.")
  | .extraOperands [a] => Text.ofString "Got unexpected extra argument (" ++ a ++ Text.ofString ")"
  | .extraOperands args =>
    Text.ofString "Got unexpected extra arguments (" ++ Text.join " " args ++ Text.ofString ")"
  | .noSuchCommand name ps =>
    Text.ofString "No such command " ++ quoteName name ++ Text.ofString "." ++ suggestion ps
  | .missingCommand => "Missing command."

/-! ## Similar names -/

/-- The longest block common to `a[alo:ahi]` and `b[blo:bhi]`: its start in each and its size;
of equally long ones, the one that ends first in `a`, then first in `b`. -/
def longestMatch (a b : Array Nat) (alo ahi blo bhi : Nat) : Nat × Nat × Nat :=
  let rows := (List.range (ahi - alo)).map (alo + ·)
  let cols := (List.range (bhi - blo)).map (blo + ·)
  let grown := rows.foldl (fun (acc : (Nat × Nat × Nat) × List (Nat × Nat)) i =>
    cols.foldl (fun (inner : (Nat × Nat × Nat) × List (Nat × Nat)) j =>
      if a[i]? == b[j]? then
        let k := (if j > 0 then (acc.2.lookup (j - 1)).getD 0 else 0) + 1
        let best := if k > inner.1.2.2 then (i + 1 - k, j + 1 - k, k) else inner.1
        (best, inner.2 ++ [(j, k)])
      else inner) (acc.1, [])) ((alo, blo, 0), [])
  grown.1

/-- The total size of the blocks common to two texts, found as the longest block and then the
same on each side of it. -/
def matchedSize (a b : Array Nat) : Nat :=
  go (a.size + b.size + 1) [(0, a.size, 0, b.size)] 0
where
  go : Nat → List (Nat × Nat × Nat × Nat) → Nat → Nat
    | 0, _, total => total
    | _, [], total => total
    | n + 1, (alo, ahi, blo, bhi) :: rest, total =>
      let (i, j, k) := longestMatch a b alo ahi blo bhi
      if k == 0 then go n rest total
      else
        let left := if alo < i && blo < j then [(alo, i, blo, j)] else []
        let right := if i + k < ahi && j + k < bhi then [(i + k, ahi, j + k, bhi)] else []
        go n (left ++ right ++ rest) (total + k)

/-- The likeness of two texts: twice the size of their common blocks over their total length,
as numerator and denominator. -/
def likeness (word other : Text) : Nat × Nat :=
  (2 * matchedSize other.points.toArray word.points.toArray, other.length + word.length)

/-- Up to three names at least 60% like a word, most alike first, later names first among
equals. -/
def closeMatches (word : Text) (names : List Text) : List Text :=
  let scored := names.filterMap fun n =>
    let (m, t) := likeness word n
    if t > 0 && 10 * m ≥ 6 * t then some (m, t, n) else none
  let better := fun (x y : Nat × Nat × Text) =>
    x.1 * y.2.1 > y.1 * x.2.1 || (x.1 * y.2.1 == y.1 * x.2.1 && !Text.le x.2.2 y.2.2)
  ((scored.mergeSort fun x y => better x y || !(better y x)).take 3).map (·.2.2)

/-! ## Reading arguments -/

/-- The state of reading arguments: words left, operands so far, options given by parameter
and the order in which parameters were given. -/
structure ParseState where
  rest : List Text
  loose : List Text
  given : List (String × Given)
  order : List String
  deriving Inhabited

/-- What reading the arguments of a command gives: its options, its operands by parameter, the
operands left over, and the order in which parameters were given. -/
structure Parsed where
  given : List (String × Given)
  operands : List (String × Option Text)
  extra : List Text
  order : List String
  deriving Inhabited

def txt (s : String) : Text := Text.ofString s

/-- The values given to an option that may be repeated, in order; none when it was not given. -/
def givenValues (given : List (String × Given)) (key : String) : List Text :=
  match given.lookup key with
  | some (.values vs) => vs
  | _ => []

/-- Whether a word is read as options: a dash and at least one more character. -/
def looksLikeOption (w : Text) : Bool :=
  w.points.head? == some '-'.toNat && w.length > 1

/-- A word split at its first `=`: the option's name, and the value joined to it. -/
def splitAttached (word : Text) : Text × Option Text :=
  match word.points.findIdx? (· == '='.toNat) with
  | some i => (⟨word.points.take i⟩, some ⟨word.points.drop (i + 1)⟩)
  | none => (word, none)

namespace Command

def longNames (c : Command) : List Text :=
  (c.switches.map fun s => (s.names.filter fun n => !isShortName n).map txt).flatten

def longSwitch (c : Command) (name : Text) : Option Switch :=
  c.switches.find? fun s => s.names.any fun n => !isShortName n && txt n == name

def shortSwitch (c : Command) (name : Text) : Option Switch :=
  c.switches.find? fun s => s.names.any fun n => isShortName n && txt n == name

/-- Notes a value given to an option: an option that may be repeated adds it to its values. -/
def record (st : ParseState) (s : Switch) (g : Given) : ParseState :=
  let g := match s.multiple, g with
    | true, .value v =>
      match st.given.lookup s.key with
      | some (.values vs) => .values (vs ++ [v])
      | _ => .values [v]
    | _, g => g
  { st with given := putEntry st.given s.key g, order := st.order ++ [s.key] }

/-- Reads a long option and its value. -/
def matchLong (s : Switch) (name : Text) (attached : Option Text) (st : ParseState) :
    Except UsageError ParseState :=
  if s.takesValue then
    let words := match attached with
      | some v => v :: st.rest
      | none => st.rest
    match words with
    | [] => .error (.needsValue name)
    | v :: rest => .ok (record { st with rest := rest } s (.value v))
  else if attached.isSome then .error (.takesNoValue name)
  else .ok (record st s .flag)

/-- Reads a word of short options. -/
def matchShort (c : Command) (word : Text) (st : ParseState) : Except UsageError ParseState :=
  match word.points with
  | [] => .ok st
  | p :: chars => go p chars [] st
where
  go (p : Nat) : List Nat → List Nat → ParseState → Except UsageError ParseState
    | [], unknown, st => .ok (finish p unknown st)
    | ch :: more, unknown, st =>
      let name : Text := ⟨[p, ch]⟩
      match c.shortSwitch name with
      | none =>
        if c.keepsUnknown then go p more (unknown ++ [ch]) st
        else .error (.noSuchOption name [])
      | some s =>
        if s.takesValue then
          let words := if more.isEmpty then st.rest else ⟨more⟩ :: st.rest
          match words with
          | [] => .error (.needsValue name)
          | v :: rest => .ok (finish p unknown (record { st with rest := rest } s (.value v)))
        else go p more unknown (record st s .flag)
  finish (p : Nat) (unknown : List Nat) (st : ParseState) : ParseState :=
    if c.keepsUnknown && !unknown.isEmpty then { st with loose := st.loose ++ [⟨p :: unknown⟩] }
    else st

/-- Reads a word that starts like an option. -/
def processOption (c : Command) (word : Text) (st : ParseState) : Except UsageError ParseState :=
  let (name, attached) := splitAttached word
  match c.longSwitch name with
  | some s => matchLong s name attached st
  | none =>
    if word.points.take 2 != points2 then c.matchShort word st
    else if c.keepsUnknown then .ok { st with loose := st.loose ++ [word] }
    else .error (.noSuchOption name (closeMatches name c.longNames))
where
  points2 : List Nat := ['-'.toNat, '-'.toNat]

/-- Reads words until the options end. -/
def scanOptions (c : Command) : Nat → ParseState → Except UsageError ParseState
  | 0, st => .ok st
  | n + 1, st =>
    match st.rest with
    | [] => .ok st
    | w :: rest =>
      if w == txt "--" then .ok { st with rest := rest }
      else if looksLikeOption w then do
        let st ← c.processOption w { st with rest := rest }
        c.scanOptions n st
      else if c.interspersed then c.scanOptions n { st with rest := rest, loose := st.loose ++ [w] }
      else .ok st

/-- Reads the arguments of a command. -/
def parse (c : Command) (args : List Text) : Except UsageError Parsed := do
  let st ← c.scanOptions (2 * args.length + 1) ⟨args, [], [], []⟩
  let words := st.loose ++ st.rest
  let operands := c.operands.zipIdx.map fun (o, i) => (o.key, words[i]?)
  pure ⟨st.given, operands, words.drop c.operands.length,
    st.order ++ c.operands.map (·.key)⟩

/-! ## Help -/

/-- The usage of a command, without its leading word. -/
def usagePieces (c : Command) : String :=
  " ".intercalate (["[OPTIONS]"] ++ c.operands.map (·.metavar) ++ c.tail)

/-- The usage line of a command. -/
def usage (c : Command) : Text :=
  let head := "Usage: " ++ c.path ++ " "
  Text.join "\n" (fillLines pageWidth head (String.ofList (List.replicate head.length ' '))
    (points c.usagePieces))
where
  points (s : String) : List Nat := s.toList.map Char.toNat

/-- The term of an option in help: its names, short ones first, and its value's name. -/
def Switch.term (s : Switch) : Text :=
  let names := s.names.mergeSort fun a b => (namePrefix a).length ≤ (namePrefix b).length
  txt (", ".intercalate names ++ (if s.takesValue then " " ++ s.metavar else ""))

/-- The help page of a command, with further sections after its options. -/
def helpPage (c : Command) (sections : List (String × List (Text × Text))) : Text :=
  let body := if c.help.isEmpty then Text.empty
    else txt "\n" ++ wrapParagraphs pageWidth "  " (txt c.help) ++ txt "\n"
  let optionRows := c.switches.map fun s => (Switch.term s, txt s.help)
  let blocks := ([("Options", optionRows)] ++ sections).filter (fun b => !b.2.isEmpty)
  let rendered := blocks.map fun (title, rows) =>
    txt ("\n" ++ title ++ ":\n") ++ definitionList 2 rows
  let page := c.usage ++ txt "\n" ++ body ++ Text.join "" rendered
  ⟨(page.points.reverse.dropWhile (· == 0x0A)).reverse⟩

end Command

end BlockPlan.Cli
