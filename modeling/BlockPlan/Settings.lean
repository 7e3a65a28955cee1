import BlockPlan.Folder
import BlockPlan.Yaml.Native
import BlockPlan.Project
import BlockPlan.Value.Show

/-!
# Settings

The settings of a run are a map, built in three layers: the defaults (`defaultSettings`: a
project at `.` without flags, variable files or variables, and logging at level `INFO`), then
the project file `.hclplan/config.yaml` of the working directory when it exists, then a file
named by the caller. Each layer is merged into the one before (`Graph.mergeInto`): where both
hold a map under a key, the maps are merged, and otherwise the later value replaces the earlier
one in its place. Maps are merged in place, so a map that a layer holds in two places shows
the merge in both.

A settings file is YAML whose document is a map or empty. A named file that does not exist is
refused before it is read; a directory cannot be read. The log level is the text of
`logging.level`, in capitals; the project is the `project` map read as project settings.
-/

namespace BlockPlan

/-- Why settings cannot be read. -/
inductive SettingsError where
  | notFound (path : Text)
  | isDirectory (path : Text)
  | missingFile (path : Text)
  | badYaml (path : Text) (message : Text)
  | notAMapping (path : Text)
  | projectNotAMapping
  | invalidProject (issues : List Issue)
  deriving Inhabited

/-- The message of a settings failure. -/
def SettingsError.message : SettingsError → Text
  | .notFound p => Text.ofString "Config file not found: " ++ p
  | .isDirectory p =>
    Text.ofString "Error loading config file " ++ p ++ Text.ofString ": [Errno 21] Is a directory: " ++
      Text.ofString (reprText p)
  | .missingFile p =>
    Text.ofString "Error loading config file " ++ p ++
      Text.ofString ": [Errno 2] No such file or directory: " ++ Text.ofString (reprText p)
  | .badYaml p m => Text.ofString "Invalid YAML in config file " ++ p ++ Text.ofString ": " ++ m
  | .notAMapping p => Text.ofString "Config file must contain a dictionary: " ++ p
  | .projectNotAMapping => "project is not a dict"
  | .invalidProject issues =>
    Text.ofString "Invalid project config: " ++ Text.ofString (issuesHeadline issues.length "ProjectConfig")

/-- The failure of reading settings, with the issues of invalid project settings. -/
def SettingsError.failure (e : SettingsError) : Failure :=
  match e with
  | .invalidProject issues => ⟨.config, e.message, issues⟩
  | _ => .of .config e.message

def textKey (s : String) : Value := .str (Text.ofString s)

/-- The settings every run starts from. -/
def defaultSettings : List (Value × Value) :=
  [(textKey "project", .map [(textKey "path", textKey "."), (textKey "terraform_plan_flags", textKey ""),
      (textKey "terraform_var_files", .list []), (textKey "terraform_vars", .list [])]),
    (textKey "logging", .map [(textKey "level", textKey "INFO")])]

/-- The value under a key of a map, keys compared as map keys are. -/
def lookupKey (entries : List (Value × Value)) (k : Value) : Option Value :=
  (entries.find? fun e => Value.eqv e.1 k).map (·.2)

/-- Merges map cell `later` into map cell `base`: where both hold a map under a key, those
maps merge, and otherwise the later value takes the key's place in `base`. Maps are changed in
place, so every place that holds them sees the change; `fuel` bounds the depth, and merging
deeper fails. -/
def Graph.mergeInto (g : Graph) : Nat → Nat → Nat → Option Graph
  | 0, _, _ => none
  | fuel + 1, base, later =>
    (g.entries later).foldlM (fun g (k, v) =>
      match g.lookup base k with
      | some earlier =>
        if g.isMap earlier && g.isMap v then Graph.mergeInto g fuel earlier v
        else some (g.putEntry base k v)
      | none => some (g.putEntry base k v)) g

/-- How many levels of maps merge when the settings are loaded by a routine at call depth
`depth`: each level is a call one deeper, which lists its later map's entries one call deeper
again. -/
def mergeRoom (depth : Nat) : Nat := callLimit - (depth + 1)

/-- Merges a later layer, a graph and its map cell, into settings loaded by a routine at call
depth `depth`. -/
def mergeLayer (depth : Nat) (acc : Graph × Nat) (layer : Graph × Nat) :
    Except Failure (Graph × Nat) :=
  let size := acc.1.cells.size
  match (acc.1.append layer.1).mergeInto (mergeRoom depth) acc.2 (Cell.shifted size layer.2) with
  | some g => .ok (g, acc.2)
  | none => .error (.of .recursion "maximum recursion depth exceeded while calling a Python object")

/-- Whether a value counts as true: none, false, zero, and empty text, bytes and containers do
not. -/
def Value.truthy : Value → Bool
  | .null => false
  | .bool b => b
  | .int n => n != 0
  | .float x => x != 0.0
  | .str s => !s.isEmpty
  | .bytes bs => !bs.isEmpty
  | .list xs | .tuple xs | .set xs | .frozenset xs => !xs.isEmpty
  | .map es => !es.isEmpty
  | _ => true

/-- Reads a settings file, written in messages as `shown`, in a routine at call depth `depth`:
its values and the cell of its map, none for an empty document. -/
def readSettingsFile (f : Folder) (p shown : Text) (depth : Nat) :
    Except Failure (Option (Graph × Nat)) :=
  match f.entry p with
  | some .directory => .error (SettingsError.isDirectory shown).failure
  | none => .error (SettingsError.missingFile shown).failure
  | some (.file bytes) =>
    match decodeUtf8 bytes with
    | .error fault => .error (.of .undecodable fault.message)
    | .ok text =>
      match readYamlGraph ⟨Text.normalizeNewlines text.points⟩ depth with
      | .error (.failure g) => .error g
      | .error fault => .error (SettingsError.badYaml shown (fault.message shown)).failure
      | .ok none => .ok none
      | .ok (some (g, root)) =>
        match g.cell root with
        | .scalar .null => .ok none
        | .map _ => .ok (some (g, root))
        | _ => .error (SettingsError.notAMapping shown).failure

/-- Where the project file of a working directory lies. -/
def projectFile : Text := Text.ofString ".hclplan/config.yaml"

/-- The settings of a run, loaded by a routine at call depth `depth`: the defaults, the project
file if there is one, then the named file. Each file is read one call deeper. -/
def loadSettings (f : Folder) (named : Option Text) (depth : Nat) :
    Except Failure (List (Value × Value)) := do
  let defaults := Graph.empty.addValue [] (.map defaultSettings)
  let merged ← match f.entry projectFile with
    | some _ =>
      match ← readSettingsFile f projectFile (f.absolute projectFile) (depth + 1) with
      | some layer => mergeLayer depth defaults layer
      | none => pure defaults
    | none => pure defaults
  let merged ← match named with
    | none => pure merged
    | some p =>
      match f.entry p with
      | none => throw (SettingsError.notFound p).failure
      | some _ =>
        match ← readSettingsFile f p (Path.normalize p) (depth + 1) with
        | some layer => mergeLayer depth merged layer
        | none => pure merged
  match (merged.1.term merged.2).shape with
  | .map es => pure es
  | _ => pure []

/-- The log level: the text of `logging.level` in capitals, `INFO` without one; a level that
holds a whole number too long to be written out has no text. A `logging`
that counts as false stands for an empty map; one that is not a map has no levels. -/
def logLevel (settings : List (Value × Value)) : Except Failure Text :=
  match lookupKey settings (textKey "logging") with
  | none => .ok (Text.ofString "INFO")
  | some v =>
    if !v.truthy then .ok (Text.ofString "INFO")
    else
      match v.shape with
      | .map es =>
        match lookupKey es (textKey "level") with
        | some level =>
          if level.holdsLongWhole then .error (.of .wrongValue (Text.ofString Numeral.digitLimitMessage))
          else .ok (Text.upper level.display)
        | none => .ok (Text.ofString "INFO")
      | other =>
        .error (.of .missingAttribute
          (Text.ofString ("'" ++ other.qualifiedTypeName ++ "' object has no attribute 'get'")))

/-- The project settings: the `project` map, one that counts as false standing for an empty
map. -/
def projectSettings (settings : List (Value × Value)) : Except Failure ProjectConfig :=
  let project := (lookupKey settings (textKey "project")).getD .null
  let project := if project.truthy then project else .map []
  match project.shape with
  | .map es =>
    if es.any (fun e => !(e.1 matches .str _)) then .error (.of .wrongType "keywords must be strings")
    else (ProjectConfig.read es).mapError fun issues => (SettingsError.invalidProject issues).failure
  | _ => .error SettingsError.projectNotAMapping.failure

end BlockPlan
