import BlockPlan.Project
import BlockPlan.Plan.Wire

/-!
# A provider of plan documents

`HclProvider` gives plan documents for a directory of configuration without running a plan:
it is created from project settings, handing the directory and the parser options to a reader
of modules; its plan text is the compact plan of the modules read; resources are loaded by
handing that text to a consumer.

Failures of the reader reach both the plan text and the resources unchanged. A failure of the
consumer that is one of the plan builder's own passes unchanged; any other becomes a provider
failure that quotes it.
-/

namespace BlockPlan

/-- A provider of plan documents for one directory. -/
structure HclProvider where
  /-- The directory its reader was made for. -/
  path : Text
  /-- The options its reader was made with. -/
  options : ParserOptions
  /-- What its reader reads: the modules, or the failure. -/
  modules : Except Failure (List Module)

namespace HclProvider

def kind : String := "terraform_hcl"

def displayKind : String := "Terraform directory (HCL)"

/-- A provider for a project, with the reader that the project's directory and options give. -/
def create (project : ProjectConfig) (reader : Text → ParserOptions → Except Failure (List Module)) :
    Except Failure HclProvider := do
  let options ← project.parserOptions
  pure ⟨project.path, options, reader project.path options⟩

def planJson (p : HclProvider) : Except Failure Text := do
  let ms ← p.modules
  planText ms none

/-- The resources a consumer loads from the plan text. -/
def loadResources {α : Type} (p : HclProvider) (consumer : Text → Except Failure α) :
    Except Failure α := do
  let text ← p.planJson
  match consumer text with
  | .ok r => pure r
  | .error f =>
    if f.kind.isOwn then throw f
    else throw (.of .provider (Text.ofString "plan JSON provider failed to load resources: " ++ f.message))

end HclProvider

end BlockPlan
