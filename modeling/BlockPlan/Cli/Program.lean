import BlockPlan.Cli.Command
import BlockPlan.Tree.File
import BlockPlan.Settings
import BlockPlan.Plan.Wire
import BlockPlan.Json.Basic

/-!
# The command line

`runCommandLine prog folder args depth` runs the command line in a working directory and gives
its `Outcome`: exit code, what it wrote to standard output and error, the working directory
after it, and the failure that ended it unreported, if one did. `depth` is the call depth of
its main routine, from which the readers of files count their calls (`callLimit`).

The commands:

* `convert MODULES_FILE` writes the plan of a module file: to standard output with a final line
  break, or without one to the file of `-o`/`--output`, reporting `Output saved to: <file>`.
  `--pretty` indents it by two spaces; `--config` names a settings file, whose log level is
  read unless `-v`/`--verbose` is given; `--quiet` leaves out the progress lines.
* `validate MODULES_FILE` counts the modules, blocks, resources and providers of a module file.
* `flags [PLAN_FLAGS]` prints the variable files and variables of plan flags as indented JSON;
  without flags, the parser options of the project of the settings.
* `version`, and the option `--version`, print the version.

A module file is first looked up from the working directory: a missing file or a directory is
reported. A failure of the tool's own kinds is reported as `Error: <message>` with exit code 1
(for `validate` with a tip); any other failure ends the run with exit code 1 unreported.
Arguments that do not fit a command are reported with its usage and exit code 2; no arguments at
all show the help of the tool, with exit code 2.
-/

namespace BlockPlan.Cli

def version : String := "0.1.0"

def versionLine : Text := txt ("hclplan version " ++ version ++ "\n")

def helpSwitch : Switch := ⟨"help", ["--help"], false, "", "Show this message and exit.", true, false⟩

def pathSwitch (key : String) (names : List String) (help : String) : Switch :=
  ⟨key, names, true, "PATH", help, false, false⟩

def flagSwitch (key : String) (names : List String) (help : String) : Switch :=
  ⟨key, names, false, "", help, false, false⟩

/-- The `convert` command under a program name. -/
def convertCommand (prog : String) : Command where
  path := prog ++ " convert"
  help := "Convert a parsed module tree (JSON or YAML) to Terraform plan JSON.\n\n" ++
    "Writes to stdout unless --output is given:\nhclplan convert modules.json > plan.json"
  switches := [pathSwitch "output" ["--output", "-o"] "Save plan JSON to file",
    flagSwitch "pretty" ["--pretty"] "Indent the generated plan JSON",
    pathSwitch "config" ["--config"] "Path to config YAML file",
    flagSwitch "verbose" ["--verbose", "-v"] "Enable debug logging",
    flagSwitch "quiet" ["--quiet"] "Suppress progress messages", helpSwitch]
  operands := [⟨"modules_file", true⟩]
  keepsUnknown := false
  interspersed := true
  tail := []

/-- The `validate` command. -/
def validateCommand (prog : String) : Command where
  path := prog ++ " validate"
  help := "Validate a parsed module tree file and print block counts."
  switches := [helpSwitch]
  operands := [⟨"modules_file", true⟩]
  keepsUnknown := false
  interspersed := true
  tail := []

/-- The `flags` command, which keeps options it does not know as its argument. -/
def flagsCommand (prog : String) : Command where
  path := prog ++ " flags"
  help := "Print the -var and -var-file values found in PLAN_FLAGS as JSON.\n\n" ++
    "Example: hclplan flags \"-var-file=prod.tfvars -var 'region=eu-west-1'\"\n\n" ++
    "Without PLAN_FLAGS, prints the parser options of the configured project\n" ++
    "(plan flags plus terraform_var_files and terraform_vars)."
  switches := [pathSwitch "config" ["--config"] "Path to config YAML file", helpSwitch]
  operands := [⟨"plan_flags", false⟩]
  keepsUnknown := true
  interspersed := true
  tail := []

/-- The `version` command. -/
def versionCommand (prog : String) : Command where
  path := prog ++ " version"
  help := "Show hclplan version."
  switches := [helpSwitch]
  operands := []
  keepsUnknown := false
  interspersed := true
  tail := []

/-- The tool itself, which runs one of its commands. -/
def toolCommand (prog : String) : Command where
  path := prog
  help := "hclplan - Build Terraform plan JSON from parsed HCL configuration."
  switches := [⟨"version", ["--version"], false, "", "Show the version and exit.", true, false⟩, helpSwitch]
  operands := []
  keepsUnknown := false
  interspersed := false
  tail := ["COMMAND [ARGS]..."]

/-- The commands of the tool by name, in the order help lists them. -/
def commands (prog : String) : List (String × Command) :=
  [("convert", convertCommand prog), ("flags", flagsCommand prog),
    ("validate", validateCommand prog), ("version", versionCommand prog)]

/-- The help page of the tool, listing its commands with their short help. -/
def toolHelp (prog : String) : Text :=
  let cmds := commands prog
  let limit := pageWidth - 6 - (cmds.map (·.1.length)).foldl max 0
  (toolCommand prog).helpPage
    [("Commands", cmds.map fun (name, c) => (txt name, shortHelp (txt c.help) limit))]

/-- What a run of the command line gives. -/
structure Outcome where
  exitCode : Nat
  stdout : Text
  stderr : Text
  folder : Folder
  /-- A failure that ended the run without being reported. -/
  escaped : Option Failure
  deriving Inhabited

def finished (folder : Folder) (out err : Text) : Outcome := ⟨0, out, err, folder, none⟩

def refused (folder : Folder) (err : Text) : Outcome := ⟨1, Text.empty, err, folder, none⟩

/-- A run whose arguments do not fit a command. -/
def misused (folder : Folder) (c : Command) (e : UsageError) : Outcome :=
  let usage := if e.showsUsage then c.usage ++ txt ("\nTry '" ++ c.path ++ " --help' for help.\n\n")
    else Text.empty
  ⟨2, Text.empty, usage ++ txt "Error: " ++ e.message ++ txt "\n", folder, none⟩

def errorLine (message : Text) : Text := txt "Error: " ++ message ++ txt "\n"

/-- Ends a run on a failure: the tool's own kinds are reported, others end it unreported. -/
def failed (folder : Folder) (err : Text) (f : Failure) (tip : Option String) : Outcome :=
  if f.kind.isOwn then
    let tipLine := match tip with
      | some t => txt ("Tip: " ++ t ++ "\n")
      | none => Text.empty
    ⟨1, Text.empty, err ++ errorLine f.message ++ tipLine, folder, none⟩
  else ⟨1, Text.empty, err, folder, some f⟩

/-- The text given to an option, if any. -/
def valueOf (p : Parsed) (key : String) : Option Text :=
  match p.given.lookup key with
  | some (.value t) => some t
  | _ => none

def isSet (p : Parsed) (key : String) : Bool := (p.given.lookup key).isSome

def operandOf (p : Parsed) (key : String) : Option Text := (p.operands.lookup key).join

/-- Finds a module file from the working directory: its full path, or why it cannot be used. -/
def resolveFile (f : Folder) (file : Text) : Except Text Text :=
  let full := if file.points.head? == some '/'.toNat then file else f.root ++ txt "/" ++ file
  let full := Path.collapse full
  match f.entry full with
  | none => .error (txt "File not found: " ++ file ++ txt ". Please check the file path and try again.")
  | some .directory =>
    .error (txt "Path is not a file: " ++ file ++ txt ". Please provide a valid file path.")
  | some (.file _) => .ok full

def parentParts (p : Text) : List Text := ((Path.normalize p).splitOn '/'.toNat).dropLast

/-- Writes text to a file, making the directories above it; a file standing where a directory
must be, or a directory where the file must be, fails. -/
def writeFile (f : Folder) (p : Text) (text : Text) : Except Failure Folder := do
  let parts := parentParts (f.relative p)
  let prefixes := (List.range parts.length).map fun i => Text.join "/" (parts.take (i + 1))
  match prefixes.getLast? with
  | some parent =>
    match f.entry parent with
    | some (.file _) =>
      throw (.of .fileExists (txt "[Errno 17] File exists: " ++ quoteName parent))
    | some .directory => pure ()
    | none =>
      if prefixes.any (fun q => f.entry q matches some (.file _)) then
        throw (.of .notDirectory (txt "[Errno 20] Not a directory: " ++ quoteName parent))
  | none => pure ()
  match f.entry p with
  | some .directory => throw (.of .isDirectory (txt "[Errno 21] Is a directory: " ++ quoteName p))
  | _ => pure (f.write p ((text.utf8).toOption.getD []))

/-- Runs `convert` in a routine at call depth `depth`: the settings are loaded two calls deeper,
through the routine that sets up logging, and so are the modules, through the routine that
converts the file. -/
def runConvert (depth : Nat) (f : Folder) (p : Parsed) : Outcome :=
  let file := (operandOf p "modules_file").getD Text.empty
  match resolveFile f file with
  | .error msg => refused f (errorLine msg)
  | .ok full =>
    match loadSettings f (valueOf p "config") (depth + 2) with
    | .error e => failed f Text.empty e none
    | .ok settings =>
      let level := if isSet p "verbose" then .ok (txt "DEBUG") else logLevel settings
      match level with
      | .error e => failed f Text.empty e none
      | .ok _ =>
        let quiet := isSet p "quiet"
        let err := if quiet then Text.empty else txt "Converting module tree: " ++ full ++ txt "\n"
        let indent := if isSet p "pretty" then some (Indent.spaces 2) else none
        match loadModules f full (depth + 2) >>= fun ms => convertModules ms indent with
        | .error e => failed f err e none
        | .ok text =>
          match valueOf p "output" with
          | some out =>
            if out.isEmpty then finished f (text ++ txt "\n") err
            else
              match writeFile f out text with
              | .error e => failed f err e none
              | .ok f2 =>
                let saved := if quiet then Text.empty
                  else txt "Output saved to: " ++ Path.normalize out ++ txt "\n"
                finished f2 Text.empty (err ++ saved)
          | none => finished f (text ++ txt "\n") err

/-- Runs `validate` in a routine at call depth `depth`; the modules are loaded one call deeper. -/
def runValidate (depth : Nat) (f : Folder) (p : Parsed) : Outcome :=
  let file := (operandOf p "modules_file").getD Text.empty
  match resolveFile f file with
  | .error msg => refused f (errorLine msg)
  | .ok full =>
    match loadModules f full (depth + 1) with
    | .error e => failed f Text.empty e (some "Check the module tree against the expected block format.")
    | .ok ms =>
      let s := Summary.of ms
      finished f (txt s!"Valid module tree: {s.modules} module(s), {s.blocks} block(s), {s.resources} resource(s), {s.providers} provider(s)\n") Text.empty

def textList (ts : List Text) : Json := .arr (ts.map .str)

/-- Runs `flags` in a routine at call depth `depth`; the settings are loaded one call deeper. -/
def runFlags (depth : Nat) (f : Folder) (p : Parsed) : Outcome :=
  let result : Except Failure Json :=
    match operandOf p "plan_flags" with
    | some flags => (PlanVars.parse flags).map fun pv =>
        .obj [(txt "files", textList pv.files), (txt "vars", textList pv.vars)]
    | none =>
      (loadSettings f (valueOf p "config") (depth + 1) >>= projectSettings >>=
        ProjectConfig.parserOptions).map
        fun o => .obj [(txt "tfvars_paths", textList o.tfvarsPaths), (txt "input_vars", textList o.inputVars)]
  match result with
  | .error e => failed f Text.empty e none
  | .ok j => finished f (Json.write (Json.Style.indented (txt "  ") true) j ++ txt "\n") Text.empty

/-- Runs a command on its arguments: help first when asked, then the checks of its operands. -/
def runCommand (f : Folder) (c : Command) (action : Folder → Parsed → Outcome) (args : List Text) :
    Outcome :=
  match c.parse args with
  | .error e => misused f c e
  | .ok p =>
    if isSet p "help" then finished f (c.helpPage [] ++ txt "\n") Text.empty
    else
      match c.operands.find? (fun o => o.required && (operandOf p o.key).isNone) with
      | some o => misused f c (.missingOperand o.metavar)
      | none =>
        if !p.extra.isEmpty then misused f c (.extraOperands p.extra)
        else action f p

/-- The call depth of a command's routine when the command line's main routine runs at call
depth `depth`: the group, the command and the context each call one deeper. -/
def commandDepth (depth : Nat) : Nat := depth + 4

/-- The action of a command by name, run in a routine at call depth `depth`. -/
def actionOf (name : String) (depth : Nat) : Folder → Parsed → Outcome :=
  if name == "convert" then runConvert depth
  else if name == "validate" then runValidate depth
  else if name == "flags" then runFlags depth
  else fun f _ => finished f versionLine Text.empty

/-- Acts on the options of the tool that act at once, in the order they were given. -/
def eagerOutcome (prog : String) (f : Folder) (p : Parsed) : Option Outcome :=
  (p.order.filter fun k => k == "help" || k == "version").head?.map fun k =>
    if k == "help" then finished f (toolHelp prog ++ txt "\n") Text.empty
    else finished f versionLine Text.empty

/-- The call depth of the command line's main routine when it runs as a program: the entry
script calls the tool, which calls its main routine. -/
def programDepth : Nat := 3

/-- Runs the command line on arguments in a working directory, its main routine at call depth
`depth`. -/
def runCommandLine (prog : String) (f : Folder) (args : List Text) (depth : Nat) : Outcome :=
  let tool := toolCommand prog
  if args.isEmpty then ⟨2, Text.empty, toolHelp prog ++ txt "\n", f, none⟩
  else
    match tool.parse args with
    | .error e => misused f tool e
    | .ok p =>
      match eagerOutcome prog f p with
      | some o => o
      | none =>
        match p.extra with
        | [] => misused f tool .missingCommand
        | name :: rest =>
          match (commands prog).find? (fun e => txt e.1 == name) with
          | some (cmdName, c) => runCommand f c (actionOf cmdName (commandDepth depth)) rest
          | none =>
            let unknown := UsageError.noSuchCommand name
              (closeMatches name ((commands prog).map fun e => txt e.1))
            let looksLikeOption := !(namePrefix name.toStr).isEmpty
            if looksLikeOption then
              match tool.parse (name :: rest) with
              | .error e => misused f tool e
              | .ok p2 => (eagerOutcome prog f p2).getD (misused f tool unknown)
            else misused f tool unknown

end BlockPlan.Cli
