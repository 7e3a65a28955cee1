import BlockPlan.Tree.Basic
import BlockPlan.Json.Basic

/-!
# Expressions of blocks

The configuration part of a plan records, for each resource, which addresses its expressions
refer to. `Block.expressions` maps

* each attribute with references to those references, a later attribute of one name
  overwriting an earlier one in its place,
* then each kind of child block to the expressions of the children of that kind that have
  any, in order; a kind named like an attribute takes that attribute's place.

Attributes without references and children without expressions are left out. The calls that
find them go one level deeper for each level of blocks; past the room they have, none are found
(`Block.expressionsWithin`).
-/

namespace BlockPlan

/-- The expression of an attribute, or of the child blocks of one kind. -/
inductive Expression where
  /-- The addresses an attribute refers to. -/
  | references (addresses : List Text)
  /-- The expressions of child blocks, one map per child. -/
  | nested (maps : List (List (Text × Expression)))
  deriving Inhabited

/-- Appends `item` to the list under `k`, starting a list at the end when there is none. -/
def appendUnder {α : Type} (m : List (Text × List α)) (k : Text) (item : α) : List (Text × List α) :=
  if m.any (fun e => e.1 == k) then m.map fun e => if e.1 == k then (e.1, e.2 ++ [item]) else e
  else m ++ [(k, [item])]

/-- The expressions of a block. -/
def Block.expressions (b : Block) : List (Text × Expression) :=
  let attrs := b.attributes.foldl
    (fun m a => if a.references.isEmpty then m else putEntry m a.name (.references a.references)) []
  let kids := b.children.attach.foldl
    (fun m ⟨c, _⟩ =>
      let e := c.expressions
      if e.isEmpty then m else appendUnder m c.kind e) []
  kids.foldl (fun m k => putEntry m k.1 (.nested k.2)) attrs
termination_by sizeOf b
decreasing_by
  have := List.sizeOf_lt_of_mem ‹c ∈ b.children›
  have : sizeOf b.children < sizeOf b := by cases b; simp only [Block.mk.sizeOf_spec]; omega
  omega

/-- The expressions of a block found by calls that may go `room` levels deep, none when its blocks
nest deeper. -/
def Block.expressionsWithin (room : Nat) (b : Block) : Option (List (Text × Expression)) :=
  if b.nestsWithin room then some b.expressions else none

mutual

/-- The JSON form of an expression: `{"references": [...]}`, or an array of maps. -/
def Expression.toJson : Expression → Json
  | .references rs => .obj [("references", .arr (rs.map .str))]
  | .nested ms => .arr (Expression.mapsToJson ms)

/-- The JSON forms of several maps of expressions. -/
def Expression.mapsToJson : List (List (Text × Expression)) → List Json
  | [] => []
  | m :: rest => .obj (Expression.fieldsToJson m) :: Expression.mapsToJson rest

def Expression.fieldsToJson : List (Text × Expression) → List (Text × Json)
  | [] => []
  | (k, e) :: rest => (k, e.toJson) :: Expression.fieldsToJson rest

end

end BlockPlan
