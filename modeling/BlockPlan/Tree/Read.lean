import BlockPlan.Tree.Basic
import BlockPlan.Record.Field
import BlockPlan.Failure

/-!
# Reading configuration trees from values

`Block.read` reads a block from a map of values, field by field in the order `type`,
`type_label`, `name_label`, `attributes`, `children`, `values`, `has_module_block`,
`module_name`, `module_source`, `module_address`; only `type` is required, keys that are not
fields are ignored. A container read as a block inside itself, through a `knot`, is refused
as a loop (`recursion_loop`) where it stands again. Then the block is completed:

* when `values` is absent (an explicit null stays null), the values are the attributes' values
  by name, a later attribute of one name overwriting an earlier one in its place;
* when `module_name` is non-empty and `has_module_block` is absent, the block sits in a module
  call;
* when it sits in a module call with a non-empty `module_name` and no address, the address is
  `module.<module_name>`.
-/

namespace BlockPlan

/-- Reads an attribute: a required `name`, a `value` (null when absent) and `references`. -/
def Attribute.read (v : Value) : Checked Attribute :=
  match v.shape with
  | .map entries =>
    let name := requiredField entries "name" readText
    let value := optionalField entries "value" (fun v => .ok v) .null
    let refs := optionalField entries "references" (readList readText) []
    (name.and (value.and refs)).map fun (n, v, rs) => ⟨n, v, rs⟩
  | _ => Checked.fail .modelType

def readValues : Value → Checked (Option (List (Text × Value)))
  | .null => .ok none
  | v => some <$> readTextMap v

/-- The attributes' values by name, a later attribute of one name overwriting an earlier one. -/
def valuesOf (attrs : List Attribute) : List (Text × Value) :=
  attrs.foldl (fun m a => putEntry m a.name a.value) []

/-- A block from its fields as read: the values from the attributes when they were absent, the
module call from a non-empty module name when it was not stated, and the address from the name. -/
def Block.complete (kind typeLabel nameLabel : Text) (attrs : List Attribute)
    (children : List Block) (values : Option (Option (List (Text × Value))))
    (hasModule : Option Bool) (moduleName : Option Text) (moduleSource moduleAddress : Text) :
    Block :=
  let named : Option Text := moduleName.filter fun n => !n.isEmpty
  let inCall := hasModule.getD named.isSome
  let address :=
    match named with
    | some n => if inCall && moduleAddress.isEmpty then "module." ++ n else moduleAddress
    | none => moduleAddress
  { kind, typeLabel, nameLabel, attributes := attrs, children
    values := values.getD (some (valuesOf attrs))
    hasModuleBlock := inCall, moduleName, moduleSource, moduleAddress := address }

/-- How many blocks may stand inside one another; deeper blocks are refused as a loop. -/
def blockNestingLimit : Nat := 10000

/-- Reads a block and its children, at most `fuel` deep. `guard` holds the containers read as
blocks around it: a container met again inside itself is refused as a loop. -/
def Block.readWithin (guard : List Nat) : Nat → Value → Checked Block
  | 0, _ => Checked.fail .recursionLoop
  | fuel + 1, v =>
    let again := match v with
      | .knot id _ => guard.contains id
      | _ => false
    let guard := match v with
      | .knot id _ => id :: guard
      | _ => guard
    if again then Checked.fail .recursionLoop
    else
      match v.shape with
      | .map entries =>
        let kind := requiredField entries "type" readText
        let typeLabel := optionalField entries "type_label" readText ""
        let nameLabel := optionalField entries "name_label" readText ""
        let attrs := optionalField entries "attributes" (readList Attribute.read) []
        let children := optionalField entries "children"
          (readList (Block.readWithin guard fuel)) []
        let values := optionalField entries "values" (fun v => some <$> readValues v) none
        let hasModule := optionalField entries "has_module_block" (fun v => some <$> readBool v) none
        let moduleName := optionalField entries "module_name" readOptText none
        let moduleSource := optionalField entries "module_source" readText ""
        let moduleAddress := optionalField entries "module_address" readText ""
        (kind.and (typeLabel.and (nameLabel.and (attrs.and (children.and (values.and
          (hasModule.and (moduleName.and (moduleSource.and moduleAddress))))))))).map
          fun (k, tl, nl, as, cs, vs, hm, mn, ms, ma) => Block.complete k tl nl as cs vs hm mn ms ma
      | _ => Checked.fail .modelType

def Block.read (v : Value) : Checked Block := Block.readWithin [] blockNestingLimit v

/-- Reads a block, every issue reported as one failure. -/
def Block.parse (v : Value) : Except Failure Block :=
  match Block.read v with
  | .ok b => .ok b
  | .error issues => .error ⟨.validation, issuesHeadline issues.length "Block", issues⟩

/-- Reads a module: `name`, `source` and `blocks`, all optional. -/
def Module.read (entries : List (Value × Value)) : Checked Module :=
  let name := optionalField entries "name" readText ""
  let source := optionalField entries "source" readText ""
  let blocks := optionalField entries "blocks" (readList Block.read) []
  (name.and (source.and blocks)).map fun (n, s, bs) => ⟨n, s, bs⟩

end BlockPlan
