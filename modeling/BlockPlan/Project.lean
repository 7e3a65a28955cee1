import BlockPlan.Flags
import BlockPlan.Record.Field

/-!
# Project settings

A project names the directory to read (`path`, `.` by default), the flags a plan would be made
with (`terraform_plan_flags`), and further variable files and variables
(`terraform_var_files`, `terraform_vars`). Its parser options are the variable files and the
variables of its flags, followed by the further ones.
-/

namespace BlockPlan

/-- The settings of a project. -/
structure ProjectConfig where
  path : Text
  planFlags : Text
  varFiles : List Text
  vars : List Text
  deriving Inhabited

/-- What the configuration reader is given: variable files and variables. -/
structure ParserOptions where
  tfvarsPaths : List Text
  inputVars : List Text
  deriving Inhabited

namespace ProjectConfig

/-- Reads project settings from a map; every field is optional. -/
def read (entries : List (Value × Value)) : Checked ProjectConfig :=
  let path := optionalField entries "path" readText "."
  let flags := optionalField entries "terraform_plan_flags" readText ""
  let files := optionalField entries "terraform_var_files" (readList readText) []
  let vars := optionalField entries "terraform_vars" (readList readText) []
  (path.and (flags.and (files.and vars))).map fun (p, f, fs, vs) => ⟨p, f, fs, vs⟩

/-- The issues of project settings as one failure. -/
def issuesFailure (issues : List Issue) : Failure :=
  ⟨.validation, issuesHeadline issues.length "ProjectConfig", issues⟩

/-- Reads project settings, every issue reported as one failure. -/
def parse (entries : List (Value × Value)) : Except Failure ProjectConfig :=
  (read entries).mapError issuesFailure

/-- The parser options of a project: the flags' files and variables first. -/
def parserOptions (p : ProjectConfig) : Except Failure ParserOptions :=
  match PlanVars.ofFlags p.planFlags with
  | .ok pv => .ok ⟨pv.files ++ p.varFiles, pv.vars ++ p.vars⟩
  | .error e =>
    .error (.of .planFlags
      (Text.ofString "could not parse vars from plan flags: " ++ e.describe p.planFlags))

end ProjectConfig

end BlockPlan
