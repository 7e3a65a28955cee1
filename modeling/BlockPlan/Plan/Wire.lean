import BlockPlan.Plan.Document
import BlockPlan.Text.Utf8
import BlockPlan.Failure

/-!
# Plan documents as JSON text

`Plan.toJson` lays a plan out in its fixed shape: `format_version` `1.0`, `terraform_version`
`1.1.0`, `planned_values`, `resource_changes` and `configuration`, the `resources` of a root
module left out when there are none.

Keys chosen by the configuration are treated in two ways. The keys of a map of values or of
expressions, and the names of providers and module calls, are written with each surrogate
replaced by three replacement characters. A key deeper inside a value must be free of
surrogates, and the containers of a value may nest at most `serializerDepthLimit` levels: the
first key or container that breaks this, in document order, refuses the document. Text elsewhere
is written as it is, and a surrogate left in the finished text refuses it when it is encoded as
UTF-8 (`Plan.render`). The writer's own nesting stays far within the calls it may make.

`convertModules` gives the plan text of modules or the failure: containers or blocks nested too
deep fail the conversion, any other fault fails the writing of the plan.
-/

namespace BlockPlan

/-- Why a plan document cannot be written. -/
inductive WireError where
  /-- A key inside a value holds surrogates. -/
  | nestedKey (run : SurrogateRun)
  /-- The containers of a value nest deeper than the writer follows. -/
  | tooDeep
  /-- The finished text holds surrogates. -/
  | surrogates (run : SurrogateRun)
  deriving Inhabited

/-- The message of a writing failure. -/
def WireError.message : WireError → String
  | .nestedKey run =>
    "Error calling function `_omit_empty_resources`: UnicodeEncodeError: " ++ run.message
  | .tooDeep => "Error calling function `_omit_empty_resources`: ValueError: " ++
    "Circular reference detected (depth exceeded)"
  | .surrogates run => run.message

/-- How many levels of containers a value under a key chosen by the configuration may nest before
the writer refuses it as a circular reference. -/
def serializerDepthLimit : Nat := 254

/-- The first fault of the writer inside a value, in document order: a key that holds surrogates,
or containers nested past `room` levels. -/
def Json.checkWithin : Nat → Json → Except WireError Unit
  | 0, .arr _ => .error .tooDeep
  | 0, .obj _ => .error .tooDeep
  | room + 1, .arr items => items.forM (checkWithin room)
  | room + 1, .obj fields => fields.forM fun e =>
    match e.1.firstSurrogateRun with
    | some run => .error (.nestedKey run)
    | none => checkWithin room e.2
  | _, _ => .ok ()

/-- A map chosen by the configuration: its keys with surrogates replaced, the values under them
checked for keys with surrogates and for nesting. -/
def payload (m : List (Text × Json)) : Except WireError Json := do
  let fields ← m.foldlM (fun acc e => do
    match e.2.checkWithin serializerDepthLimit with
    | .error w => throw w
    | .ok () => pure (putEntry acc e.1.scrub e.2)) []
  pure (.obj fields)

def optionalPayload : Option (List (Text × Json)) → Except WireError Json
  | none => .ok .null
  | some m => payload m

namespace PlannedResource

/-- The planned values of a resource. -/
def toJson (r : PlannedResource) : Except WireError Json := do
  let values ← optionalPayload r.values
  pure (.obj [("address", .str r.address), ("mode", .str "managed"), ("type", .str r.type),
    ("name", .str r.name), ("schema_version", .int 1), ("values", values)])

end PlannedResource

/-- A change that creates a resource. -/
def Change.toJson (c : Change) : Except WireError Json := do
  let after ← optionalPayload c.after
  pure (.obj [("address", .str c.address), ("module_address", .str c.moduleAddress),
    ("mode", .str "managed"), ("type", .str c.type), ("name", .str c.name),
    ("change", .obj [("actions", .arr [.str "create"]), ("before", .null), ("after", after)])])

/-- The declaration of a resource. -/
def Declaration.toJson (d : Declaration) : Except WireError Json := do
  let exprs ← payload (Expression.fieldsToJson d.expressions)
  pure (.obj [("address", .str d.address), ("mode", .str "managed"), ("type", .str d.type),
    ("name", .str d.name), ("provider_config_key", .str d.providerKey), ("expressions", exprs)])

def ProviderConfig.toJson (c : ProviderConfig) : Json :=
  .obj [("name", .str c.name),
    ("expressions", .obj [("region", .obj [("constant_value", .str c.region)])])]

def ModuleCall.toJson (c : ModuleCall) : Except WireError Json := do
  let decls ← c.declarations.mapM Declaration.toJson
  pure (.obj [("source", .str c.source), ("module", .obj [("resources", .arr decls)])])

/-- A root module: its `resources` when there are any, then the rest. -/
def rootModule (resources : List Json) (rest : List (Text × Json)) : Json :=
  let head : List (Text × Json) :=
    if resources.isEmpty then [] else [("resources", .arr resources)]
  .obj (head ++ rest)

/-- The JSON form of a plan document. -/
def Plan.toJson (p : Plan) : Except WireError Json := do
  let root ← p.rootResources.mapM PlannedResource.toJson
  let child ← p.childResources.mapM PlannedResource.toJson
  let changes ← p.changes.mapM Change.toJson
  let providers := p.providers.foldl (fun acc e => putEntry acc e.1.scrub e.2.toJson) []
  let decls ← p.rootDeclarations.mapM Declaration.toJson
  let calls ← p.calls.foldlM (fun acc e => do pure (putEntry acc e.1.scrub (← e.2.toJson))) []
  pure (.obj [
    ("format_version", .str "1.0"),
    ("terraform_version", .str "1.1.0"),
    ("planned_values", .obj [("root_module",
      rootModule root [("child_modules", .arr [.obj [("resources", .arr child)]])])]),
    ("resource_changes", .arr changes),
    ("configuration", .obj [
      ("provider_config", .obj providers),
      ("root_module", rootModule decls [("module_calls", .obj calls)])])])

/-- How plan text is laid out: on one line, or one item per line under an indent of some
spaces (none when the count is not positive) or of a given text. -/
inductive Indent where
  | spaces (n : Int)
  | text (t : Text)

/-- The layout of plan text; non-ASCII text is kept. -/
def Indent.style : Option Indent → Json.Style
  | none => Json.Style.compact
  | some (.spaces n) => Json.Style.indented (Text.replicate n.toNat " ") false
  | some (.text t) => Json.Style.indented t false

/-- Why modules cannot become plan text. -/
inductive PlanError where
  /-- The values of a block have no JSON form. -/
  | marshal (e : MarshalError)
  /-- The document cannot be written. -/
  | wire (e : WireError)
  deriving Inhabited

/-- The plan text of modules, checked to encode as UTF-8. -/
def Plan.render (ms : List Module) (indent : Option Indent) : Except PlanError Text := do
  let p ← (Plan.ofModules ms).mapError PlanError.marshal
  let j ← p.toJson.mapError PlanError.wire
  let text := Json.write (Indent.style indent) j
  match text.firstSurrogateRun with
  | some run => throw (PlanError.wire (.surrogates run))
  | none => pure text

/-- The failure of writing a plan: containers or blocks nested too deep fail as such, anything
else fails the writing. -/
def PlanError.failure : PlanError → Failure
  | .marshal .tooDeep => .of .recursion MarshalError.tooDeep.message
  | .marshal .blocksTooDeep => .of .recursion MarshalError.blocksTooDeep.message
  | .marshal e =>
    .of .planSerialization (Text.ofString "error handling built plan json from hcl: " ++ e.message)
  | .wire e => .of .planSerialization ("error handling built plan json from hcl: " ++ e.message)

def planText (ms : List Module) (indent : Option Indent) : Except Failure Text :=
  (Plan.render ms indent).mapError PlanError.failure

/-- The plan text of modules under a layout, a failure that is not the plan builder's own
wrapped as a failed conversion. -/
def convertModules (ms : List Module) (indent : Option Indent) : Except Failure Text :=
  (planText ms indent).mapError fun f =>
    if f.kind == .recursion then .of .conversion (Text.ofString "Conversion failed: " ++ f.message)
    else f

end BlockPlan
