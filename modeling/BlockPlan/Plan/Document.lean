import BlockPlan.Plan.Values
import BlockPlan.Plan.Expressions

/-!
# Plan documents

A plan document records, for every resource block of the modules, its planned values, a change
that creates it, and its declaration with the expressions it refers to; and, for every provider
block, a provider configuration.

`Plan.ofModules` goes through the modules in order. Within a module it first records every
provider block, in block order: the provider's name is its `alias` attribute when that is
non-empty text, else its type label; its region is its `region` attribute when that is text,
else empty; a provider of a name already recorded takes the place of the earlier one. The
module's default provider key is the first non-empty provider name. Then it records the resource
blocks, in block order; other blocks are skipped.

A resource outside a module call is declared at the root under its full name, with the provider
key from its `provider` attribute when that is non-empty text, else the module's default. A
resource inside a module call is declared in the call named by its module name (empty when
there is none), created with the resource's module source at its first resource, under its
local name, with the provider key `<module name>:<provider>`; its planned values go to the one
bucket of child-module resources.

The planned values of a resource are found by calls that reach `blockCallRoom` levels of its
blocks. Its expressions are found by calls one level shallower, so once its planned values are
found its expressions are too.
-/

namespace BlockPlan

/-- The planned values of one resource. -/
structure PlannedResource where
  address : Text
  type : Text
  name : Text
  values : Option (List (Text × Json))

/-- A change that creates one resource, with its planned values after it. -/
structure Change where
  address : Text
  moduleAddress : Text
  type : Text
  name : Text
  after : Option (List (Text × Json))

def PlannedResource.ofBlock (b : Block) (values : Option (List (Text × Json))) : PlannedResource :=
  ⟨b.fullName, b.typeLabel, b.nameLabel, values⟩

def Change.ofBlock (b : Block) (values : Option (List (Text × Json))) : Change :=
  ⟨b.fullName, b.moduleAddress, b.typeLabel, b.nameLabel, values⟩

/-- The declaration of a resource in the configuration. -/
structure Declaration where
  address : Text
  type : Text
  name : Text
  providerKey : Text
  expressions : List (Text × Expression)

/-- The configuration of a provider. -/
structure ProviderConfig where
  name : Text
  region : Text

/-- A module call: its source and the resources declared in it. -/
structure ModuleCall where
  source : Text
  declarations : List Declaration

/-- A plan document. -/
structure Plan where
  rootResources : List PlannedResource
  childResources : List PlannedResource
  changes : List Change
  providers : List (Text × ProviderConfig)
  rootDeclarations : List Declaration
  calls : List (Text × ModuleCall)

namespace Plan

def empty : Plan := ⟨[], [], [], [], [], []⟩

/-- The name of a provider block: its non-empty `alias`, else its type label. -/
def providerName (b : Block) : Text :=
  match b.textAttribute? "alias" with
  | some s => if s.isEmpty then b.typeLabel else s
  | none => b.typeLabel

/-- Records a block when it is a provider: its configuration under its name, and its name as the
default provider key when there is none yet. -/
def addProvider (acc : Plan × Text) (b : Block) : Plan × Text :=
  if b.kind == providerKind then
    let name := providerName b
    let config : ProviderConfig := ⟨name, (b.textAttribute? "region").getD ""⟩
    ({ acc.1 with providers := putEntry acc.1.providers name config },
      if acc.2.isEmpty then name else acc.2)
  else acc

/-- Records the provider blocks of a module; also gives the first non-empty provider name. -/
def addProviders (p : Plan) (blocks : List Block) : Plan × Text :=
  blocks.foldl addProvider (p, Text.empty)

/-- Adds a declaration to the module call of a name, creating the call with a source. -/
def addToCall (calls : List (Text × ModuleCall)) (name source : Text) (d : Declaration) :
    List (Text × ModuleCall) :=
  if calls.any (fun c => c.1 == name) then
    calls.map fun c =>
      if c.1 == name then (c.1, { c.2 with declarations := c.2.declarations ++ [d] }) else c
  else calls ++ [(name, ⟨source, [d]⟩)]

/-- Records one resource block whose planned values are `values`. -/
def record (p : Plan) (defaultKey : Text) (b : Block) (values : Option (List (Text × Json))) :
    Plan :=
  let planned := PlannedResource.ofBlock b values
  let p := { p with changes := p.changes ++ [Change.ofBlock b values] }
  if b.hasModuleBlock then
    let callName := b.moduleName.getD Text.empty
    let d : Declaration :=
      ⟨b.localName, b.typeLabel, b.nameLabel, callName ++ ":" ++ b.provider, b.expressions⟩
    { p with
      calls := addToCall p.calls callName b.moduleSource d
      childResources := p.childResources ++ [planned] }
  else
    let key := match b.textAttribute? "provider" with
      | some s => if s.isEmpty then defaultKey else s
      | none => defaultKey
    let d : Declaration := ⟨b.fullName, b.typeLabel, b.nameLabel, key, b.expressions⟩
    { p with
      rootDeclarations := p.rootDeclarations ++ [d]
      rootResources := p.rootResources ++ [planned] }

def addResource (p : Plan) (defaultKey : Text) (b : Block) : Except MarshalError Plan :=
  p.record defaultKey b <$> b.plannedValuesWithin blockCallRoom

/-- Records a module: its providers, then its resources. -/
def addModule (p : Plan) (m : Module) : Except MarshalError Plan :=
  let (p, key) := p.addProviders m.blocks
  m.blocks.foldlM (fun p b => if b.kind == resourceKind then p.addResource key b else pure p) p

def ofModules (ms : List Module) : Except MarshalError Plan :=
  ms.foldlM addModule empty

end Plan

end BlockPlan
