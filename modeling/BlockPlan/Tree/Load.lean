import BlockPlan.Tree.Read
import BlockPlan.Failure

/-!
# Module documents

A module document is a list of modules, or a map whose `modules` key holds that list.
`parseModules` reads one, in this order of checks: a map without `modules` is refused; a value
that is not a list is refused; then each item in order must be a map whose keys are all text,
and must read as a module (`Module.read`); the first item that fails names its index.
-/

namespace BlockPlan

/-- Why a module document cannot be read. -/
inductive LoadError where
  | noModulesKey
  | notAList
  | notAMapping (index : Nat)
  | invalid (index : Nat) (issues : List Issue)
  /-- A module map has a key that is not text. -/
  | keyNotText
  | fileMissing (name : Text)
  | notAFile (name : Text)
  | badJson (message : String)
  | badYaml (message : Text)
  | undecodable (fault : DecodeFault)
  deriving Inhabited

/-- The message of a loading failure. -/
def LoadError.message : LoadError → Text
  | .noModulesKey => "Module document must contain a 'modules' key"
  | .notAList => "'modules' must be a list"
  | .notAMapping i => s!"Invalid module at index {i}: expected a mapping"
  | .invalid i issues =>
    let headline := issuesHeadline issues.length "Module"
    s!"Invalid module at index {i}: {headline}"
  | .keyNotText => "keywords must be strings"
  | .fileMissing name =>
    Text.ofString "Module file not found: " ++ name ++
      ". Please check the file path and ensure the file exists."
  | .notAFile name => Text.ofString "Path is not a file: " ++ name ++ "."
  | .badJson m => "Invalid JSON in module file: " ++ m
  | .badYaml m => Text.ofString "Invalid YAML in module file: " ++ m
  | .undecodable f => f.message

/-- The failure of loading: a module that does not fit its fields carries its issues. -/
def LoadError.failure (e : LoadError) : Failure :=
  match e with
  | .invalid _ issues => ⟨.moduleLoad, e.message, issues⟩
  | .keyNotText => .of .wrongType e.message
  | .undecodable _ => .of .undecodable e.message
  | _ => .of .moduleLoad e.message

/-- Reads the modules of a document. -/
def parseModules (doc : Value) : Except LoadError (List Module) := do
  let items ← match doc.shape with
    | .map entries =>
      match Value.lookupText entries "modules" with
      | some v => pure v
      | none => throw LoadError.noModulesKey
    | v => pure v
  let items ← match items.shape with
    | .list xs => pure xs
    | _ => throw LoadError.notAList
  items.zipIdx.mapM fun (item, i) =>
    match item.shape with
    | .map entries =>
      if entries.any (fun e => !(e.1 matches .str _)) then throw LoadError.keyNotText
      else
        match Module.read entries with
        | .ok m => pure m
        | .error issues => throw (LoadError.invalid i issues)
    | _ => throw (LoadError.notAMapping i)

end BlockPlan
