import BlockPlan.Tree.Basic
import BlockPlan.Value.Canonical
import BlockPlan.Value.Show
import BlockPlan.Failure

/-!
# Planned values of blocks

`marshalValues kind values` gives the JSON form (`Value.toJson`) of each value of a block, keys
unchanged and in order. For `resource` and `module` blocks the meta-argument `count` is left
out. The first value without a JSON form stops it with an error that names its key and the
block kind; containers nested too deep are reported as such, without key.

`Block.plannedValues` adds the child blocks: each child's planned values (found the same way)
are appended to the list under the child's kind, or, when no list stands there, a new list of
them replaces the entry. A block with children and no values starts from an empty map; a child
with neither values nor children adds null.

The maps may have keys of any kind (`AttributeKey`) and values of any kind that can hold
planned values (`PlannedSlot`): JSON for plans, attribute values for maps given from outside.

The calls that find planned values go one level deeper for each level of child blocks
(`Block.plannedValuesWithin`): a child met past `blockCallRoom` levels fails as nested too deep,
where it stands among the values encoded before it. `Block.plannedValues` and
`Block.addChildren` are the same search with room for any depth.
-/

namespace BlockPlan

/-- Keys of attribute maps: their text in messages, whether a key names an attribute, and the
key for a name. -/
class AttributeKey (κ : Type) where
  display : κ → Text
  isName : κ → Text → Bool
  ofName : Text → κ

instance : AttributeKey Text := ⟨id, fun k n => k == n, id⟩

instance : AttributeKey Value := ⟨Value.display, fun k n => k.eqv (.str n), .str⟩

/-- Values of maps that receive planned child values: how planned values stand in them, and
which of them are lists that more can be appended to. -/
class PlannedSlot (β : Type) where
  ofPlanned : Option (List (Text × Json)) → β
  items? : β → Option (List β)
  ofItems : List β → β

instance : PlannedSlot Json where
  ofPlanned
    | none => .null
    | some m => .obj m
  items?
    | .arr xs => some xs
    | _ => none
  ofItems := .arr

instance : PlannedSlot Value where
  ofPlanned
    | none => .null
    | some m => (Json.obj m).toValue
  items?
    | .list xs => some xs
    | _ => none
  ofItems := .list

/-- Why the planned values of a block cannot be found. -/
inductive MarshalError where
  /-- The value of an attribute has no JSON form. -/
  | attribute (key : Text) (blockKind : Text) (cause : EncodeError)
  /-- Containers nested too deep. -/
  | tooDeep
  /-- Child blocks nested deeper than the calls that follow them reach. -/
  | blocksTooDeep
  deriving Inhabited

/-- The message of a marshalling failure. -/
def MarshalError.message : MarshalError → Text
  | .attribute k kind cause =>
    Text.ofString "cannot encode attribute '" ++ k ++ "' of " ++ kind ++ " block: " ++ cause.message
  | .tooDeep => EncodeError.tooDeep.message
  | .blocksTooDeep => Text.ofString "maximum recursion depth exceeded"

/-- The failure of marshalling: a value without JSON form fails the plan's writing, containers
or blocks nested too deep fail as such. -/
def MarshalError.failure (e : MarshalError) : Failure :=
  match e with
  | .attribute .. => .of .planSerialization e.message
  | .tooDeep | .blocksTooDeep => .of .recursion e.message

/-- Resource and module blocks leave out their `count`. -/
def skipsCount (kind : Text) : Bool := kind == resourceKind || kind == moduleKind

variable {κ β : Type}

/-- The JSON form of the value under one key. -/
def marshalEntry [AttributeKey κ] (kind : Text) (k : κ) (v : Value) : Except MarshalError Json :=
  match v.toJson with
  | .ok j => .ok j
  | .error .tooDeep => .error .tooDeep
  | .error e => .error (.attribute (AttributeKey.display k) kind e)

/-- The JSON forms of a block's values, keys in order, `count` left out where it is skipped. -/
def marshalValues [AttributeKey κ] (kind : Text) (values : List (κ × Value)) :
    Except MarshalError (List (κ × Json)) :=
  (values.filter fun e => !(skipsCount kind && AttributeKey.isName e.1 "count")).mapM
    fun e => (e.1, ·) <$> marshalEntry kind e.1 e.2

/-- Adds one child's planned values under its kind: appended to a list standing there, else in a
new list in place of the entry or at the end. -/
def addChild [AttributeKey κ] [PlannedSlot β] (m : List (κ × β)) (kind : Text) (planned : β) :
    List (κ × β) :=
  match m.find? (fun e => AttributeKey.isName e.1 kind) with
  | some (_, existing) =>
    let items := (PlannedSlot.items? existing).getD []
    m.map fun e =>
      if AttributeKey.isName e.1 kind then (e.1, PlannedSlot.ofItems (items ++ [planned])) else e
  | none => m ++ [(AttributeKey.ofName kind, PlannedSlot.ofItems [planned])]

/-- Adds the planned values of children, in order, each under its kind. -/
def addPlanned [AttributeKey κ] [PlannedSlot β] (m : List (κ × β))
    (planned : List (Text × Option (List (Text × Json)))) : List (κ × β) :=
  planned.foldl (fun m c => addChild m c.1 (PlannedSlot.ofPlanned c.2)) m

theorem Block.sizeOf_children_lt (b : Block) : sizeOf b.children < sizeOf b := by
  cases b
  simp only [Block.mk.sizeOf_spec]
  omega

/-- The planned values of a block: its values in JSON form with its children's added. -/
def Block.plannedValues (b : Block) : Except MarshalError (Option (List (Text × Json))) := do
  let vs ← b.values.mapM (marshalValues b.kind)
  if b.children.isEmpty then pure vs
  else
    let cs ← b.children.attach.mapM fun ⟨c, _⟩ => (c.kind, ·) <$> c.plannedValues
    pure (some (addPlanned (vs.getD []) cs))
termination_by sizeOf b
decreasing_by
  have := List.sizeOf_lt_of_mem ‹c ∈ b.children›
  have := Block.sizeOf_children_lt b
  omega

/-- Adds the planned values of a block's children to a map. -/
def Block.addChildren [AttributeKey κ] [PlannedSlot β] (b : Block) (m : List (κ × β)) :
    Except MarshalError (List (κ × β)) := do
  let cs ← b.children.mapM fun c => (c.kind, ·) <$> c.plannedValues
  pure (addPlanned m cs)

/-- The planned values of a block found by calls that may go `room` levels deep, the block's own
level the first: a child met with no room left fails as nested too deep, before its values are
encoded. -/
def Block.plannedValuesWithin : Nat → Block → Except MarshalError (Option (List (Text × Json)))
  | 0, _ => .error .blocksTooDeep
  | room + 1, b => do
    let vs ← b.values.mapM (marshalValues b.kind)
    if b.children.isEmpty then pure vs
    else
      let cs ← b.children.mapM fun c => (c.kind, ·) <$> c.plannedValuesWithin room
      pure (some (addPlanned (vs.getD []) cs))

/-- Adds the planned values of a block's children to a map, by calls that may go `room` levels
below the block. -/
def Block.addChildrenWithin [AttributeKey κ] [PlannedSlot β] (room : Nat) (b : Block)
    (m : List (κ × β)) : Except MarshalError (List (κ × β)) := do
  let cs ← b.children.mapM fun c => (c.kind, ·) <$> c.plannedValuesWithin room
  pure (addPlanned m cs)

end BlockPlan
