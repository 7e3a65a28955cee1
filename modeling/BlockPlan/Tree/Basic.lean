import BlockPlan.Value.Basic

/-!
# Configuration trees

A module groups top-level blocks; a block has a kind (`provider`, `resource`, or any nested
kind), up to two labels, attributes in declaration order, nested child blocks, optional
evaluated values, and where it sits inside a module call.

Names of a block:

* its local name is `type_label.name_label`, or the type label alone when there is no name;
* its full name puts `module_address.` in front when it sits in a module call with an address;
* its provider is its `provider` attribute when that is text, else its type label up to the
  first `_`.

The calls that walk a block tree go one level deeper for each level of blocks, and reach at most
`blockCallRoom` levels (`Block.nestsWithin`).
-/

namespace BlockPlan

/-- An evaluated attribute of a block, with the addresses its expression refers to. -/
structure Attribute where
  name : Text
  value : Value
  references : List Text
  deriving Inhabited

/-- A configuration block. -/
structure Block where
  kind : Text
  typeLabel : Text
  nameLabel : Text
  attributes : List Attribute
  children : List Block
  values : Option (List (Text × Value))
  hasModuleBlock : Bool
  moduleName : Option Text
  moduleSource : Text
  moduleAddress : Text
  deriving Inhabited

/-- A module: a name, a source and its top-level blocks. -/
structure Module where
  name : Text
  source : Text
  blocks : List Block
  deriving Inhabited

def providerKind : Text := "provider"

def resourceKind : Text := "resource"

def moduleKind : Text := "module"

namespace Block

def attribute? (b : Block) (name : Text) : Option Attribute :=
  b.attributes.find? fun a => a.name == name

/-- The value of the first attribute with the given name, when that value is text. -/
def textAttribute? (b : Block) (name : Text) : Option Text :=
  match b.attribute? name with
  | some ⟨_, .str s, _⟩ => some s
  | _ => none

/-- `type_label.name_label`, or the type label alone when the name is empty. -/
def localName (b : Block) : Text :=
  if b.nameLabel.isEmpty then b.typeLabel else b.typeLabel ++ "." ++ b.nameLabel

/-- The local name behind the module address, when the block sits in a module call with one. -/
def fullName (b : Block) : Text :=
  if b.hasModuleBlock && !b.moduleAddress.isEmpty then b.moduleAddress ++ "." ++ b.localName
  else b.localName

def typePrefix (b : Block) : Text :=
  ⟨b.typeLabel.points.takeWhile (· != 0x5F)⟩

/-- The `provider` attribute when it is text (even empty), else the type prefix. -/
def provider (b : Block) : Text :=
  (b.textAttribute? "provider").getD b.typePrefix

/-- Whether a block and the blocks inside it stand at most `depth` levels deep, the block itself
on the first level. -/
def nestsWithin : Nat → Block → Bool
  | 0, _ => false
  | depth + 1, b => b.children.all (nestsWithin depth)

end Block

/-- How many levels of a block tree the calls that walk it (to find its planned values or its
expressions) reach: one call for each level, under a limit of 1000 nested calls of which the
callers around them take about ten. -/
def blockCallRoom : Nat := 990

namespace Module

def blocksOf (m : Module) (kind : Text) : List Block := m.blocks.filter fun b => b.kind == kind

end Module

/-- Counts of a list of modules: modules, top-level blocks, resources and providers. -/
structure Summary where
  modules : Nat
  blocks : Nat
  resources : Nat
  providers : Nat

/-- Counts the modules, their top-level blocks, and of those the resources and providers. -/
def Summary.of (ms : List Module) : Summary :=
  ⟨ms.length, (ms.map fun m => m.blocks.length).foldl (· + ·) 0,
    (ms.map fun m => (m.blocksOf resourceKind).length).foldl (· + ·) 0,
    (ms.map fun m => (m.blocksOf providerKind).length).foldl (· + ·) 0⟩

end BlockPlan
