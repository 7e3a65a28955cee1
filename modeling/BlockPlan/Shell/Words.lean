import BlockPlan.Text.Basic

/-!
# Command lines as words

`splitWords` splits a command line into words the way a POSIX shell does, without comments:

* blanks (space, tab, carriage return, line feed) separate words;
* single quotes keep everything up to the next single quote;
* double quotes keep everything up to the next double quote, except that a backslash before
  a double quote or a backslash stands for that character (before anything else it stays);
* outside quotes a backslash stands for the character after it;
* quotes may join parts of one word, and an empty pair of quotes is an empty word.

A quote that is not closed, or a backslash at the end, refuses the line.
-/

namespace BlockPlan

/-- Why a command line cannot be split. -/
inductive WordsError where
  | unclosedQuote
  | danglingEscape
  deriving DecidableEq, Inhabited

def WordsError.message : WordsError → String
  | .unclosedQuote => "No closing quotation"
  | .danglingEscape => "No escaped character"

/-- Where the splitter stands. -/
inductive SplitMode where
  /-- Between words. -/
  | between
  /-- Inside a word, outside quotes. -/
  | word
  /-- Inside the quotes `q`. -/
  | quoted (q : Nat)
  /-- After a backslash, inside double quotes or not. -/
  | escaped (inDouble : Bool)
  deriving DecidableEq, Inhabited

/-- The splitter's state: its mode, the word so far (reversed), whether it had quotes, and the
words found (reversed). -/
structure SplitState where
  mode : SplitMode
  word : List Nat
  hadQuotes : Bool
  words : List Text

def isWordBlank (c : Nat) : Bool := c = 0x20 || c = 0x09 || c = 0x0D || c = 0x0A

/-- Ends the current word, keeping it when it has characters or quotes. -/
def SplitState.close (s : SplitState) : SplitState :=
  let words := if !s.word.isEmpty || s.hadQuotes then ⟨s.word.reverse⟩ :: s.words else s.words
  ⟨.between, [], false, words⟩

/-- One step of the splitter. -/
def SplitState.step (s : SplitState) (c : Nat) : SplitState :=
  match s.mode with
  | .between =>
    if isWordBlank c then s
    else if c = 0x5C then { s with mode := .escaped false }
    else if c = 0x27 || c = 0x22 then { s with mode := .quoted c }
    else { s with mode := .word, word := [c] }
  | .word =>
    if isWordBlank c then s.close
    else if c = 0x27 || c = 0x22 then { s with mode := .quoted c }
    else if c = 0x5C then { s with mode := .escaped false }
    else { s with word := c :: s.word }
  | .quoted q =>
    if c = q then { s with mode := .word, hadQuotes := true }
    else if c = 0x5C && q = 0x22 then { s with mode := .escaped true, hadQuotes := true }
    else { s with word := c :: s.word, hadQuotes := true }
  | .escaped inDouble =>
    let kept := if inDouble && c ≠ 0x22 && c ≠ 0x5C then c :: 0x5C :: s.word else c :: s.word
    { s with mode := if inDouble then .quoted 0x22 else .word, word := kept }

/-- The words of a command line. -/
def splitWords (line : Text) : Except WordsError (List Text) :=
  let s := line.points.foldl SplitState.step ⟨.between, [], false, []⟩
  match s.mode with
  | .quoted _ => .error .unclosedQuote
  | .escaped _ => .error .danglingEscape
  | _ => .ok s.close.words.reverse

end BlockPlan
