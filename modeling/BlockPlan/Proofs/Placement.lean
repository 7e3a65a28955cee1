import BlockPlan.Proofs.ChildGroups
import BlockPlan.Tree.Read

/-!
# Where a plan places a resource

A plan places each resource block by one field alone: whether the block sits in a module call.
Its change records the module address the block carries, whatever it is; its planned values go
to the bucket of module-nested resources exactly when it sits in a call; and its address has the
module address in front exactly when it sits in a call and has an address (`Placed`,
`Plan.ofModules_placed`).

The reader makes an address from a non-empty module name only for a block in a call
(`Block.complete_moduleAddress`), so a derived address always comes with a place in the bucket.
An address that was given stands on its own: a resource given an address and no module name is
read outside any call, and its change names the address while its planned values and its own
address are those of a root resource (`addressed_block_placed_at_root`).
-/

namespace BlockPlan

theorem Text.isEmpty_eq_decide (t : Text) : t.isEmpty = decide (t = "") := by
  have hempty : Text.ofString "" = ⟨[]⟩ := by decide
  cases t with
  | mk points => cases points <;> simp [Text.isEmpty, hempty]

namespace Plan

/-- How a plan places a resource block: its change, with the block's module address; its planned
values in the bucket of module-nested resources when the block sits in a call, else at the root;
and its address, with the module address in front only for a block in a call that has one. -/
structure Placed (p : Plan) (b : Block) : Prop where
  change_mem : Change.ofBlock b b.okValues ∈ p.changes
  moduleAddress : (Change.ofBlock b b.okValues).moduleAddress = b.moduleAddress
  nested : b.hasModuleBlock = true → PlannedResource.ofBlock b b.okValues ∈ p.childResources
  root : b.hasModuleBlock = false → PlannedResource.ofBlock b b.okValues ∈ p.rootResources
  address_nested : b.hasModuleBlock = true → b.moduleAddress ≠ "" →
    (Change.ofBlock b b.okValues).address = b.moduleAddress ++ "." ++ b.localName
  address_local : b.hasModuleBlock = false ∨ b.moduleAddress = "" →
    (Change.ofBlock b b.okValues).address = b.localName

/-- The full name of a block: the module address in front exactly for a block in a call that
has one. -/
theorem fullName_eq (b : Block) :
    b.fullName = if b.hasModuleBlock = true ∧ b.moduleAddress ≠ "" then
      b.moduleAddress ++ "." ++ b.localName else b.localName := by
  unfold Block.fullName
  by_cases hm : b.hasModuleBlock = true <;> by_cases ha : b.moduleAddress = "" <;>
    simp [hm, ha, Text.isEmpty_eq_decide]

/-- Modules whose resource blocks all have planned values, found within the room of the calls,
are built without failure. -/
theorem ofModules_of_found (ms : List Module)
    (h : ∀ b ∈ resourceBlocks ms, ∃ v, b.plannedValuesWithin blockCallRoom = .ok v) :
    ofModules ms = .ok (build ms) := by
  obtain ⟨vs, hvs⟩ := (exists_forall₂_iff (fun (b : Block) (v : Option (List (Text × Json))) =>
    b.plannedValuesWithin blockCallRoom = .ok v) _).2 h
  rw [ofModules_gated, (mapM_eq_ok_iff_forall₂ _ _ _).2 hvs]
  rfl

/-- **Placement of resources.** In a plan built from modules, every resource block is placed as
`Placed` says: by whether it sits in a module call, whatever module address it carries. -/
theorem ofModules_placed (ms : List Module) (p : Plan) (h : ofModules ms = .ok p) :
    ∀ b ∈ resourceBlocks ms, Placed p b := by
  obtain ⟨rfl, -⟩ := eq_build_of_ofModules_ok ms p h
  intro b hb
  have hchange : Change.ofBlock b b.okValues ∈ (build ms).changes := by
    rw [build_changes]
    exact List.mem_map_of_mem hb
  refine ⟨hchange, rfl, fun hm => ?_, fun hm => ?_, fun hm ha => ?_, fun hcase => ?_⟩
  · rw [build_childResources]
    exact List.mem_map_of_mem (List.mem_filter.2 ⟨hb, hm⟩)
  · rw [build_rootResources]
    exact List.mem_map_of_mem (List.mem_filter.2 ⟨hb, by simp [hm]⟩)
  · show b.fullName = _
    rw [fullName_eq, if_pos ⟨hm, ha⟩]
  · show b.fullName = _
    rw [fullName_eq, if_neg]
    rintro ⟨hm, ha⟩
    rcases hcase with hcase | hcase <;> simp_all

end Plan

/-- A block with an empty map of values and no children has an empty map of planned values,
found with any room. -/
theorem Block.plannedValuesWithin_empty (b : Block) (hv : b.values = some []) (hc : b.children = [])
    {room : Nat} (hroom : 0 < room) : b.plannedValuesWithin room = .ok (some []) := by
  obtain ⟨room, rfl⟩ : ∃ r, room = r + 1 := ⟨room - 1, by omega⟩
  rw [Block.plannedValuesWithin]
  simp [hv, hc, marshalValues, pure, Except.pure, bind, Except.bind, Option.mapM,
    Functor.map, Except.map]

/-- A resource in a call with an address, one in a call without, and one at the root. -/
def placementModules : List Module :=
  [⟨"app", "./app", [
    Block.complete "resource" "aws_instance" "web" [] [] none none (some "app") "./app" "",
    Block.complete "resource" "aws_s3_bucket" "logs" [] [] none (some true) none "" "",
    Block.complete "resource" "aws_vpc" "main" [] [] none none none "" ""]⟩]

theorem placementModules_placed :
    Plan.ofModules placementModules = .ok (Plan.build placementModules) ∧
      ∀ b ∈ resourceBlocks placementModules, Plan.Placed (Plan.build placementModules) b := by
  have hfound : ∀ b ∈ resourceBlocks placementModules,
      ∃ v, b.plannedValuesWithin blockCallRoom = .ok v := by
    intro b hb
    have hres : resourceBlocks placementModules =
        [Block.complete "resource" "aws_instance" "web" [] [] none none (some "app") "./app" "",
          Block.complete "resource" "aws_s3_bucket" "logs" [] [] none (some true) none "" "",
          Block.complete "resource" "aws_vpc" "main" [] [] none none none "" ""] := rfl
    rw [hres] at hb
    simp only [List.mem_cons, List.not_mem_nil, or_false] at hb
    rcases hb with rfl | rfl | rfl <;> exact ⟨_, Block.plannedValuesWithin_empty _ rfl rfl (by decide)⟩
  have h := Plan.ofModules_of_found _ hfound
  exact ⟨h, Plan.ofModules_placed _ _ h⟩

/-- A module address made by the reader, from a non-empty module name, belongs to a block in a
module call. -/
theorem Block.complete_moduleAddress (kind typeLabel nameLabel : Text) (attrs : List Attribute)
    (children : List Block) (values : Option (Option (List (Text × Value))))
    (hasModule : Option Bool) (moduleName : Option Text) (moduleSource : Text) :
    let b := Block.complete kind typeLabel nameLabel attrs children values hasModule moduleName
      moduleSource ""
    b.moduleAddress ≠ "" → b.hasModuleBlock = true ∧
      ∃ n, moduleName = some n ∧ b.moduleAddress = "module." ++ n := by
  intro b hb
  cases moduleName with
  | none => exact absurd rfl hb
  | some n =>
    cases hn : n.isEmpty with
    | true => simp [b, Block.complete, Option.filter, hn] at hb
    | false =>
      cases hm : hasModule.getD true with
      | false => simp [b, Block.complete, Option.filter, hn, hm] at hb
      | true =>
        refine ⟨by simp [b, Block.complete, Option.filter, hn, hm], n, rfl, ?_⟩
        simp [b, Block.complete, Option.filter, hn, hm, Text.isEmpty_eq_decide]

/-- A resource given a module address and no module name. -/
def addressedBlock : Block :=
  Block.complete "resource" "aws_instance" "web" [] [] none none none "" "module.app"

/-- The modules of one resource given an address outside any call. -/
def addressedModules : List Module := [⟨"", "", [addressedBlock]⟩]

/-- A resource that carries a module address need not sit in a module call: its change names the
address, but its address is its local name and its planned values stand at the root. -/
theorem addressed_block_placed_at_root :
    Plan.ofModules addressedModules = .ok (Plan.build addressedModules) ∧
      addressedBlock.moduleAddress = "module.app" ∧
      (Plan.build addressedModules).changes.map Change.moduleAddress = ["module.app"] ∧
      (Plan.build addressedModules).changes.map Change.address = ["aws_instance.web"] ∧
      (Plan.build addressedModules).childResources.map PlannedResource.address = [] ∧
      (Plan.build addressedModules).rootResources.map PlannedResource.address =
        ["aws_instance.web"] := by
  refine ⟨Plan.ofModules_of_found _ fun b hb => ?_, by decide +kernel, by decide +kernel,
    by decide +kernel, by decide +kernel, by decide +kernel⟩
  have hres : resourceBlocks addressedModules = [addressedBlock] := rfl
  rw [hres, List.mem_singleton] at hb
  subst hb
  exact ⟨_, Block.plannedValuesWithin_empty _ rfl rfl (by decide)⟩

end BlockPlan
