import BlockPlan.Tree.Load
import BlockPlan.Folder
import BlockPlan.Json.Read
import BlockPlan.Yaml.Native

/-!
# Module files

`loadModules` reads the module document in a file of the working directory: the file must
exist and not be a directory, its bytes must be UTF-8, and its line breaks are read as line
feeds. A file whose suffix is `.yaml` or `.yml`, in any case, is YAML; any other is JSON. The
document is then read as modules (`parseModules`).

The reading runs below the loading routine, within the host's call limit (`callLimit`): YAML
from one call below it, JSON from five calls below, each container one call deeper
(`jsonRoom`).
-/

namespace BlockPlan

def isYamlFile (name : Text) : Bool :=
  let s := Text.lower (Path.suffix name)
  s == Text.ofString ".yaml" || s == Text.ofString ".yml"

/-- How many JSON containers may be nested when the loading routine runs at call depth
`depth`: the decoder's routines and its scanner object take five calls, and each container one
more. -/
def jsonRoom (depth : Nat) : Nat := callLimit - (depth + 5)

/-- The document in a module file, read for a loading routine at call depth `depth`. -/
def readModuleDocument (f : Folder) (name : Text) (depth : Nat) : Except Failure Value :=
  match f.entry name with
  | none => .error (LoadError.fileMissing name).failure
  | some .directory => .error (LoadError.notAFile name).failure
  | some (.file bytes) =>
    match decodeUtf8 bytes with
    | .error fault => .error (LoadError.undecodable fault).failure
    | .ok text =>
      let text : Text := ⟨Text.normalizeNewlines text.points⟩
      if isYamlFile name then
        match readYaml text depth with
        | .ok v => .ok v
        | .error (.failure g) => .error g
        | .error fault => .error (LoadError.badYaml (fault.message (Path.normalize name))).failure
      else
        match readJson text (jsonRoom depth) with
        | .ok v => .ok v
        | .error (.malformed reason pos) =>
          .error (LoadError.badJson (malformedMessage reason pos text.points)).failure
        | .error (.tooManyDigits n) =>
          .error (.of .wrongValue (Text.ofString
            s!"Exceeds the limit ({Numeral.digitLimit} digits) for integer string conversion: value has {n} digits; use sys.set_int_max_str_digits() to increase the limit"))
        | .error (.tooDeep object) =>
          .error (.of .recursion (Text.ofString ("maximum recursion depth exceeded while decoding a JSON " ++
            (if object then "object" else "array") ++ " from a unicode string")))

/-- The modules in a module file, loaded by a routine at call depth `depth`. -/
def loadModules (f : Folder) (name : Text) (depth : Nat) : Except Failure (List Module) := do
  let doc ← readModuleDocument f name depth
  (parseModules doc).mapError LoadError.failure

end BlockPlan
