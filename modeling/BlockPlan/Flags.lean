import BlockPlan.Shell.Words
import BlockPlan.Failure
import BlockPlan.Cli.Command

/-!
# Variables in plan flags

A plan command takes `-var NAME=VALUE` and `-var-file FILE` options, also spelled with two
dashes, each of which may be given many times. `PlanVars.ofFlags` splits a flag line into words
(`splitWords`) and reads them as the arguments of a command that declares just these two options
(`planFlagsCommand`), keeps every other option among its operands and lets options follow
operands; the values of each option are kept in order. A line of no words gives no variables.
A known option at the end of the line without its value refuses the line with the parser's
message.
-/

namespace BlockPlan

/-- The variable files and variables found in plan flags, in order. -/
structure PlanVars where
  files : List Text
  vars : List Text
  deriving Inhabited

/-- Why plan flags cannot be read. -/
inductive FlagsError where
  | words (e : WordsError)
  | usage (e : Cli.UsageError)
  deriving Inhabited

def FlagsError.message : FlagsError → Text
  | .words e => e.message
  | .usage e => e.message

/-- The option of the variables: `-var` or `--var`, which may be repeated. -/
def varsSwitch : Cli.Switch := ⟨"input_vars", ["-var", "--var"], true, "TEXT", "", false, true⟩

/-- The option of the variable files: `-var-file` or `--var-file`, which may be repeated. -/
def varFilesSwitch : Cli.Switch :=
  ⟨"var_files", ["-var-file", "--var-file"], true, "TEXT", "", false, true⟩

/-- The command plan flags are read as: it declares the two options, keeps the options it does
not know among its operands, and lets options follow operands. -/
def planFlagsCommand : Cli.Command where
  path := "terraform plan"
  help := ""
  switches := [varsSwitch, varFilesSwitch]
  operands := []
  keepsUnknown := true
  interspersed := true
  tail := []

/-- The variables of a plan flag line. -/
def PlanVars.ofFlags (flags : Text) : Except FlagsError PlanVars := do
  let words ← (splitWords flags).mapError FlagsError.words
  if words.isEmpty then return ⟨[], []⟩
  let p ← (planFlagsCommand.parse words).mapError FlagsError.usage
  return ⟨Cli.givenValues p.given varFilesSwitch.key, Cli.givenValues p.given varsSwitch.key⟩

/-- The message for a flag line that cannot be read. -/
def FlagsError.describe (flags : Text) (e : FlagsError) : Text :=
  Text.ofString "invalid plan flags '" ++ flags ++ "': " ++ e.message

/-- The variables of a plan flag line, or the failure. -/
def PlanVars.parse (flags : Text) : Except Failure PlanVars :=
  (PlanVars.ofFlags flags).mapError fun e => .of .planFlags (e.describe flags)

end BlockPlan
