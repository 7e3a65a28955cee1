import Mathlib.Data.List.Induction
import BlockPlan.Plan.Wire
import BlockPlan.Proofs.Traversal

/-!
# What a plan lists

`Plan.ofModules` records the resource blocks of the modules one by one, in module order and then
in block order, and stops at the first block whose planned values cannot be found. No step's
failure depends on the plan it is given, so the run is the pure run `Plan.build`, in which every
resource block has the planned values `Block.okValues`, gated by the traversal of the resource
blocks (`ofModules_gated`):

    Plan.ofModules ms = (fun _ => Plan.build ms) <$>
      outcome ((resourceBlocks ms).mapM (plannedValuesWithin blockCallRoom))

The calls that find planned values reach `blockCallRoom` levels of a block's tree; found, they are
the block's planned values, and the tree stands within that room
(`Block.plannedValues_of_within`, `Block.nestsWithin_of_plannedValuesWithin_ok`).

The document's lists are read off the pure run, each by what one recorded block appends to it
(`ofModules_lists`): a change for every resource block, its planned values at the root
or in the one bucket of module-nested resources, and a declaration at the root for each block
outside a module call. The module calls are kept as a map from call names (a block without a
module name joins the call named by the empty text); recording a nested block appends its
declaration to the call of its name or opens the call at the end with its module source, so
the calls are a closed form of the nested blocks (`build_calls`).
-/

namespace BlockPlan

/-- The resource blocks of the modules, in module order and then in block order. -/
def resourceBlocks (ms : List Module) : List Block := ms.flatMap fun m => m.blocksOf resourceKind

/-- The planned values of a block, or none when they cannot be found. -/
def Block.okValues (b : Block) : Option (List (Text × Json)) :=
  match b.plannedValues with
  | .ok v => v
  | .error _ => none

/-- The address of a declaration with its expressions. -/
def Declaration.site (d : Declaration) : Text × List (Text × Expression) := (d.address, d.expressions)

/-- The module call a nested block is declared in: its module name, empty when it has none. -/
def Block.callName (b : Block) : Text := b.moduleName.getD Text.empty

def Block.callDeclaration (b : Block) : Declaration :=
  ⟨b.localName, b.typeLabel, b.nameLabel, b.callName ++ ":" ++ b.provider, b.expressions⟩

/-- The module calls of nested blocks: one call for each name, in order of the name's first
block, with the module source of that block and the declarations of the blocks of the name in
order. -/
def callsOf (bs : List Block) : List (Text × ModuleCall) :=
  (bs.map Block.callName).eraseDups.map fun n =>
    (n, ⟨((bs.find? (·.callName == n)).map Block.moduleSource).getD Text.empty,
      (bs.filter (·.callName == n)).map Block.callDeclaration⟩)

/-- The first member of an object with the given key. -/
def Json.field? (j : Json) (key : Text) : Option Json :=
  match j with
  | .obj fields => (fields.find? fun f => f.1 == key).map Prod.snd
  | _ => none

/-! ## Planned values within the room of the calls -/

theorem Block.plannedValues_eq (b : Block) :
    b.plannedValues = (do
      let vs ← b.values.mapM (marshalValues b.kind)
      if b.children.isEmpty then pure vs
      else
        let cs ← b.children.mapM fun c => (c.kind, ·) <$> c.plannedValues
        pure (some (addPlanned (vs.getD []) cs))) := by
  rw [Block.plannedValues, List.mapM_subtype (fun _ _ => rfl), List.unattach_attach]
  rfl

theorem Block.plannedValuesWithin_of_nestsWithin (room : Nat) (b : Block)
    (h : b.nestsWithin room = true) : b.plannedValuesWithin room = b.plannedValues := by
  induction room generalizing b with
  | zero => simp [Block.nestsWithin] at h
  | succ room ih =>
    rw [Block.nestsWithin, List.all_eq_true] at h
    have hkids : ∀ c ∈ b.children,
        (c.kind, ·) <$> c.plannedValuesWithin room = (c.kind, ·) <$> c.plannedValues :=
      fun c hc => by rw [ih c (h c hc)]
    rw [Block.plannedValuesWithin, Block.plannedValues_eq, mapM_congr_of_mem _ _ _ hkids]

/-- Calls that find the planned values of a block had room for every level of its tree. -/
theorem Block.nestsWithin_of_plannedValuesWithin_ok (room : Nat) (b : Block)
    {v : Option (List (Text × Json))} (h : b.plannedValuesWithin room = .ok v) :
    b.nestsWithin room = true := by
  induction room generalizing b v with
  | zero => cases h
  | succ room ih =>
    rw [Block.nestsWithin, List.all_eq_true]
    intro c hc
    rw [Block.plannedValuesWithin] at h
    obtain ⟨vs, -, hrest⟩ := (bind_eq_ok_iff _ _ _).1 h
    have hne : b.children.isEmpty = false := List.isEmpty_eq_false_iff.2 (List.ne_nil_of_mem hc)
    rw [hne, if_neg Bool.false_ne_true] at hrest
    obtain ⟨cs, hcs, -⟩ := (bind_eq_ok_iff _ _ _).1 hrest
    obtain ⟨w, hw⟩ := exists_ok_of_mapM_ok _ _ _ hcs c hc
    obtain ⟨v', hv', -⟩ := (map_eq_ok_iff _ _ _).1 hw
    exact ih c hv'

theorem Block.plannedValues_of_within {room : Nat} {b : Block} {v : Option (List (Text × Json))}
    (h : b.plannedValuesWithin room = .ok v) : b.plannedValues = .ok v := by
  rw [← Block.plannedValuesWithin_of_nestsWithin room b
    (Block.nestsWithin_of_plannedValuesWithin_ok room b h), h]

namespace Plan

/-- Records a module whose resource blocks have the planned values `okValues`. -/
def buildModule (p : Plan) (m : Module) : Plan :=
  let (p, key) := p.addProviders m.blocks
  (m.blocksOf resourceKind).foldl (fun p b => p.record key b b.okValues) p

/-- The plan of modules whose resource blocks all have planned values. -/
def build (ms : List Module) : Plan := ms.foldl buildModule empty

/-! ## One step -/

section Record

variable (p : Plan) (key : Text) (b : Block) (v : Option (List (Text × Json)))

@[simp] theorem record_changes : (p.record key b v).changes = p.changes ++ [Change.ofBlock b v] := by
  unfold record
  split <;> rfl

@[simp] theorem record_rootResources :
    (p.record key b v).rootResources =
      p.rootResources ++ (if b.hasModuleBlock then [] else [PlannedResource.ofBlock b v]) := by
  unfold record
  split <;> simp_all

@[simp] theorem record_childResources :
    (p.record key b v).childResources =
      p.childResources ++ (if b.hasModuleBlock then [PlannedResource.ofBlock b v] else []) := by
  unfold record
  split <;> simp_all

theorem record_rootDeclarations :
    (p.record key b v).rootDeclarations.map Declaration.site =
      p.rootDeclarations.map Declaration.site ++
        (if b.hasModuleBlock then [] else [(b.fullName, b.expressions)]) := by
  unfold record
  split <;> simp_all [Declaration.site]

end Record

theorem addProvider_fst (acc : Plan × Text) (b : Block) :
    (addProvider acc b).1 = { acc.1 with providers := (addProvider acc b).1.providers } := by
  unfold addProvider
  split <;> rfl

theorem addProviders_fst (p : Plan) (blocks : List Block) :
    (p.addProviders blocks).1 = { p with providers := (p.addProviders blocks).1.providers } := by
  unfold addProviders
  generalize hacc : (p, Text.empty) = acc
  have hstart : acc.1 = { p with providers := acc.1.providers } := by rw [← hacc]
  clear hacc
  -- each step keeps every field of the plan it starts from, the providers apart
  induction blocks generalizing acc with
  | nil => exact hstart
  | cons b bs ih =>
    apply ih
    rw [addProvider_fst, hstart]

section Providers

variable (p : Plan) (blocks : List Block)

@[simp] theorem addProviders_changes : (p.addProviders blocks).1.changes = p.changes := by
  rw [addProviders_fst]

@[simp] theorem addProviders_rootResources :
    (p.addProviders blocks).1.rootResources = p.rootResources := by
  rw [addProviders_fst]

@[simp] theorem addProviders_childResources :
    (p.addProviders blocks).1.childResources = p.childResources := by
  rw [addProviders_fst]

@[simp] theorem addProviders_rootDeclarations :
    (p.addProviders blocks).1.rootDeclarations = p.rootDeclarations := by
  rw [addProviders_fst]

end Providers

/-! ## The run -/

/-- A resource block is recorded, whatever the plan, exactly when its planned values are found
within the room of the calls. -/
theorem addResource_gated (p : Plan) (key : Text) (b : Block) :
    p.addResource key b =
      (fun _ => p.record key b b.okValues) <$> b.plannedValuesWithin blockCallRoom := by
  unfold addResource
  cases h : b.plannedValuesWithin blockCallRoom with
  | error e => rfl
  | ok v =>
    unfold Block.okValues
    rw [Block.plannedValues_of_within h]
    rfl

theorem addModule_gated (p : Plan) (m : Module) :
    p.addModule m =
      (fun _ => p.buildModule m) <$>
        outcome ((m.blocksOf resourceKind).mapM (Block.plannedValuesWithin blockCallRoom)) := by
  unfold addModule buildModule Module.blocksOf
  cases p.addProviders m.blocks with
  | mk p' key =>
    dsimp only
    rw [← List.foldlM_filter]
    have hstep : (fun (p : Plan) => p.addResource key) =
        fun p b => (fun _ => p.record key b b.okValues) <$> b.plannedValuesWithin blockCallRoom := by
      funext p b
      exact addResource_gated p key b
    rw [hstep]
    exact foldlM_gated _ _ _ _

/-- Building a plan fails exactly as the traversal of the resource blocks fails, and otherwise
gives the pure run. -/
theorem ofModules_gated (ms : List Module) :
    ofModules ms = (fun _ => build ms) <$>
      outcome ((resourceBlocks ms).mapM (Block.plannedValuesWithin blockCallRoom)) := by
  unfold ofModules build
  have hstep : addModule = fun p m => (fun _ => p.buildModule m) <$>
      outcome ((m.blocksOf resourceKind).mapM (Block.plannedValuesWithin blockCallRoom)) := by
    funext p m
    exact addModule_gated p m
  rw [hstep, foldlM_gated]
  have houtcome : outcome (ms.mapM fun m =>
        outcome ((m.blocksOf resourceKind).mapM (Block.plannedValuesWithin blockCallRoom))) =
      outcome ((resourceBlocks ms).mapM (Block.plannedValuesWithin blockCallRoom)) := by
    rw [resourceBlocks, outcome_mapM_flatMap]
    exact outcome_mapM_congr _ _ _ fun m _ => outcome_outcome _
  rw [houtcome]

/-! ## The lists of the pure run -/

/-- A list of the plan that the providers leave alone and to which recording a block appends
`h b` holds, after the pure run, the concatenation of `h b` over the resource blocks. -/
theorem build_field {γ : Type} (π : Plan → List γ) (h : Block → List γ)
    (hrec : ∀ p key b, π (p.record key b b.okValues) = π p ++ h b)
    (hprov : ∀ p blocks, π (p.addProviders blocks).1 = π p) (ms : List Module) :
    π (build ms) = π empty ++ (resourceBlocks ms).flatMap h := by
  unfold build resourceBlocks
  rw [List.flatMap_assoc]
  refine foldl_append_of_step π (fun m => (m.blocksOf resourceKind).flatMap h) buildModule
    (fun p m => ?_) ms empty
  unfold buildModule
  have hkept := hprov p m.blocks
  rcases hpk : p.addProviders m.blocks with ⟨p', key⟩
  rw [hpk] at hkept
  dsimp only at hkept ⊢
  rw [foldl_append_of_step π h _ (fun p b => hrec p key b), hkept]

theorem build_changes (ms : List Module) :
    (build ms).changes = (resourceBlocks ms).map fun b => Change.ofBlock b b.okValues := by
  rw [build_field changes (fun b => [Change.ofBlock b b.okValues]) (by simp) (by simp),
    List.map_eq_flatMap]
  rfl

theorem build_rootResources (ms : List Module) :
    (build ms).rootResources =
      ((resourceBlocks ms).filter fun b => !b.hasModuleBlock).map
        fun b => PlannedResource.ofBlock b b.okValues := by
  rw [build_field rootResources
    (fun b => if !b.hasModuleBlock then [PlannedResource.ofBlock b b.okValues] else [])
    (fun p key b => by cases hb : b.hasModuleBlock <;> simp [hb]) (by simp),
    flatMap_ite_singleton]
  rfl

theorem build_childResources (ms : List Module) :
    (build ms).childResources =
      ((resourceBlocks ms).filter fun b => b.hasModuleBlock).map
        fun b => PlannedResource.ofBlock b b.okValues := by
  rw [build_field childResources
    (fun b => if b.hasModuleBlock then [PlannedResource.ofBlock b b.okValues] else [])
    (by simp) (by simp), flatMap_ite_singleton]
  rfl

theorem build_rootDeclarations (ms : List Module) :
    (build ms).rootDeclarations.map Declaration.site =
      ((resourceBlocks ms).filter fun b => !b.hasModuleBlock).map
        fun b => (b.fullName, b.expressions) := by
  rw [build_field (fun p => p.rootDeclarations.map Declaration.site)
    (fun b => if !b.hasModuleBlock then [(b.fullName, b.expressions)] else [])
    (fun p key b => by cases hb : b.hasModuleBlock <;> simp [record_rootDeclarations, hb])
    (by simp), flatMap_ite_singleton]
  rfl

/-! ## Module calls -/

theorem record_calls (p : Plan) (key : Text) (b : Block) (v : Option (List (Text × Json))) :
    (p.record key b v).calls = if b.hasModuleBlock then
      addToCall p.calls b.callName b.moduleSource b.callDeclaration else p.calls := by
  unfold record
  split <;> simp_all [Block.callName, Block.callDeclaration]

@[simp] theorem addProviders_calls (p : Plan) (blocks : List Block) :
    (p.addProviders blocks).1.calls = p.calls := by
  rw [addProviders_fst]

theorem find?_callName_append (l : List Block) (b : Block) {n : Text}
    (hn : n ∈ l.map Block.callName) :
    (l ++ [b]).find? (·.callName == n) = l.find? (·.callName == n) := by
  obtain ⟨b₀, hb₀, rfl⟩ := List.mem_map.1 hn
  obtain ⟨c, hc⟩ := Option.isSome_iff_exists.1
    (List.find?_isSome.2 ⟨b₀, hb₀, by simp⟩ : (l.find? (·.callName == b₀.callName)).isSome)
  rw [List.find?_append, hc, Option.some_or]

/-- A nested block recorded after others joins the call of its name, or opens one at the end
with its own module source. -/
theorem callsOf_append_singleton (l : List Block) (b : Block) :
    callsOf (l ++ [b]) = addToCall (callsOf l) b.callName b.moduleSource b.callDeclaration := by
  have hany : ((callsOf l).any fun c => c.1 == b.callName) = true ↔
      b.callName ∈ l.map Block.callName := by
    have hkeys : (callsOf l).map Prod.fst = (l.map Block.callName).eraseDups := by
      simp [callsOf, Function.comp_def]
    rw [← List.mem_eraseDups, ← hkeys]
    simp [List.any_eq_true]
  unfold addToCall
  by_cases hb : b.callName ∈ l.map Block.callName
  · rw [if_pos (hany.2 hb)]
    have hnames : ((l ++ [b]).map Block.callName).eraseDups = (l.map Block.callName).eraseDups := by
      rw [List.map_append, List.eraseDups_append, List.map_singleton]
      simp only [List.removeAll, List.filter_cons, List.filter_nil, List.elem_eq_mem, hb,
        decide_true, Bool.not_true, Bool.false_eq_true, if_false, List.eraseDups_nil,
        List.append_nil]
    unfold callsOf
    rw [hnames, List.map_map]
    refine List.map_congr_left fun n hn => ?_
    rw [List.mem_eraseDups] at hn
    rw [find?_callName_append l b hn, List.filter_append]
    by_cases hnb : n = b.callName
    · subst hnb
      simp
    · have hbn : (b.callName == n) = false := by simpa using Ne.symm hnb
      simp [hbn, hnb]
  · rw [if_neg (mt hany.1 hb)]
    have hnames : ((l ++ [b]).map Block.callName).eraseDups =
        (l.map Block.callName).eraseDups ++ [b.callName] := by
      rw [List.map_append, List.eraseDups_append, List.map_singleton]
      simp only [List.removeAll, List.filter_cons, List.filter_nil, List.elem_eq_mem, hb,
        decide_false, Bool.not_false, if_true, List.eraseDups_cons, List.eraseDups_nil]
    have hnone : l.find? (·.callName == b.callName) = none := by
      rw [List.find?_eq_none]
      intro x hx hxb
      exact hb (List.mem_map.2 ⟨x, hx, by simpa using hxb⟩)
    have hfilter : l.filter (·.callName == b.callName) = [] := by
      rw [List.filter_eq_nil_iff]
      intro x hx hxb
      exact hb (List.mem_map.2 ⟨x, hx, by simpa using hxb⟩)
    unfold callsOf
    rw [hnames, List.map_append]
    congr 1
    · refine List.map_congr_left fun n hn => ?_
      rw [List.mem_eraseDups] at hn
      have hbn : (b.callName == n) = false := by
        simp only [beq_eq_false_iff_ne]
        exact fun h => hb (h ▸ hn)
      rw [find?_callName_append l b hn, List.filter_append]
      simp [hbn]
    · simp [List.find?_append, hnone, List.filter_append, hfilter]

theorem callsOf_eq_foldl (l : List Block) :
    callsOf l = l.foldl (fun c b => addToCall c b.callName b.moduleSource b.callDeclaration) [] := by
  induction l using List.reverseRecOn with
  | nil => rfl
  | append_singleton l b ih => rw [callsOf_append_singleton, ih, List.foldl_append]; rfl

/-- The module calls of the pure run are those of its nested resource blocks. -/
theorem build_calls (ms : List Module) :
    (build ms).calls = callsOf ((resourceBlocks ms).filter fun b => b.hasModuleBlock) := by
  have hstep : ∀ (q : Plan) (m : Module), (buildModule q m).calls =
      ((m.blocksOf resourceKind).filter fun b => b.hasModuleBlock).foldl
        (fun c b => addToCall c b.callName b.moduleSource b.callDeclaration) q.calls := by
    intro q m
    unfold buildModule
    rcases hpk : q.addProviders m.blocks with ⟨q', key⟩
    have hq : q'.calls = q.calls := by rw [← addProviders_calls q m.blocks, hpk]
    dsimp only
    rw [List.foldl_filter, ← hq]
    exact (List.foldl_hom (fun (p : Plan) => p.calls) fun p b => (record_calls p key b _).symm).symm
  rw [callsOf_eq_foldl, resourceBlocks, List.filter_flatMap, List.foldl_flatMap, build]
  exact (List.foldl_hom (fun (p : Plan) => p.calls) fun p m => (hstep p m).symm).symm

/-- A plan that is built is the pure run, and every resource block had its planned values, found
within the room of the calls. -/
theorem eq_build_of_ofModules_ok (ms : List Module) (p : Plan) (h : ofModules ms = .ok p) :
    p = build ms ∧ ∀ b ∈ resourceBlocks ms,
      b.nestsWithin blockCallRoom = true ∧ b.plannedValues = .ok b.okValues := by
  rw [ofModules_gated] at h
  obtain ⟨hout, rfl⟩ := (map_const_eq_ok_iff _ _ _).1 h
  rw [outcome_outcome] at hout
  obtain ⟨vs, hvs⟩ := (outcome_eq_ok_iff _).1 hout
  refine ⟨rfl, fun b hb => ?_⟩
  obtain ⟨v, hv⟩ := exists_ok_of_mapM_ok _ _ _ hvs b hb
  have hfound := Block.plannedValues_of_within hv
  refine ⟨Block.nestsWithin_of_plannedValuesWithin_ok _ b hv, ?_⟩
  rw [hfound, Block.okValues, hfound]

/-! ## The written document -/

/-- The written plan has one bucket of module-nested resources: `child_modules` is an array of one
object whose `resources` are the nested resources written in order. -/
theorem toJson_child_modules (p : Plan) (j : Json) (h : p.toJson = .ok j) :
    ∃ cs, p.childResources.mapM PlannedResource.toJson = .ok cs ∧
      ((j.field? "planned_values").bind (·.field? "root_module")).bind (·.field? "child_modules") =
        some (.arr [.obj [("resources", .arr cs)]]) := by
  unfold Plan.toJson at h
  simp only [bind_eq_ok_iff] at h
  obtain ⟨root, -, child, hchild, changes, -, decls, -, calls, -, hj⟩ := h
  refine ⟨child, hchild, ?_⟩
  cases hj
  cases root <;> rfl

/-! ## The lists of a built plan -/

/-- What a plan built from modules lists for their resource blocks, taken in module order and
then in block order: each block's tree stands within the room of the calls and the block has its
planned values; the changes create the blocks one by
one; the planned values of the blocks outside module calls stand at the root, and those of the
blocks inside them in the one bucket of module-nested resources; the root declarations are
those of the blocks outside module calls, each with its full name and its expressions; and the
module calls are those of the blocks inside them (`callsOf`). -/
structure Lists (ms : List Module) (p : Plan) : Prop where
  within_room : ∀ b ∈ resourceBlocks ms, b.nestsWithin blockCallRoom = true
  values_found : ∀ b ∈ resourceBlocks ms, b.plannedValues = .ok b.okValues
  changes : p.changes = (resourceBlocks ms).map fun b => Change.ofBlock b b.okValues
  rootResources : p.rootResources =
    ((resourceBlocks ms).filter fun b => !b.hasModuleBlock).map
      fun b => PlannedResource.ofBlock b b.okValues
  childResources : p.childResources =
    ((resourceBlocks ms).filter fun b => b.hasModuleBlock).map
      fun b => PlannedResource.ofBlock b b.okValues
  one_bucket : ∀ j, p.toJson = .ok j →
    ∃ cs, p.childResources.mapM PlannedResource.toJson = .ok cs ∧
      ((j.field? "planned_values").bind (·.field? "root_module")).bind (·.field? "child_modules") =
        some (.arr [.obj [("resources", .arr cs)]])
  rootDeclarations : p.rootDeclarations.map Declaration.site =
    ((resourceBlocks ms).filter fun b => !b.hasModuleBlock).map fun b => (b.fullName, b.expressions)
  calls : p.calls = callsOf ((resourceBlocks ms).filter fun b => b.hasModuleBlock)

/-- **The lists of a plan.** A plan built from modules lists their resource blocks as `Lists`
says. -/
theorem ofModules_lists (ms : List Module) (p : Plan) (h : ofModules ms = .ok p) : Lists ms p := by
  obtain ⟨rfl, hfound⟩ := eq_build_of_ofModules_ok ms p h
  exact {
    within_room := fun b hb => (hfound b hb).1
    values_found := fun b hb => (hfound b hb).2
    changes := build_changes ms
    rootResources := build_rootResources ms
    childResources := build_childResources ms
    one_bucket := toJson_child_modules (build ms)
    rootDeclarations := build_rootDeclarations ms
    calls := build_calls ms }

end Plan

theorem Block.plannedValues_bare (b : Block) (hv : b.values = none) (hc : b.children = []) :
    b.plannedValues = .ok none := by
  rw [Block.plannedValues]
  simp [hv, hc, pure, Except.pure, bind, Except.bind]

theorem Block.plannedValuesWithin_bare (b : Block) (hv : b.values = none) (hc : b.children = [])
    {room : Nat} (hroom : 0 < room) : b.plannedValuesWithin room = .ok none := by
  obtain ⟨room, rfl⟩ : ∃ r, room = r + 1 := ⟨room - 1, by omega⟩
  rw [Block.plannedValuesWithin]
  simp [hv, hc, pure, Except.pure, bind, Except.bind]

/-- A bucket at the root and one inside the `logs` module call. -/
def bucketModules : List Module :=
  [⟨"", "", [⟨"resource", "aws_s3_bucket", "root", [], [], none, false, none, "", ""⟩,
    ⟨"provider", "aws", "", [], [], none, false, none, "", ""⟩,
    ⟨"resource", "aws_s3_bucket", "nested", [], [], none, true, some "logs", "./logs",
      "module.logs"⟩]⟩]

theorem bucketModules_lists :
    Plan.ofModules bucketModules = .ok (Plan.build bucketModules) ∧
      Plan.Lists bucketModules (Plan.build bucketModules) := by
  have h : Plan.ofModules bucketModules = .ok (Plan.build bucketModules) := by
    rw [Plan.ofModules_gated]
    have hres : resourceBlocks bucketModules =
        [⟨"resource", "aws_s3_bucket", "root", [], [], none, false, none, "", ""⟩,
          ⟨"resource", "aws_s3_bucket", "nested", [], [], none, true, some "logs", "./logs",
            "module.logs"⟩] := by
      rfl
    rw [hres, List.mapM_cons, List.mapM_cons, Block.plannedValuesWithin_bare _ rfl rfl (by decide),
      Block.plannedValuesWithin_bare _ rfl rfl (by decide)]
    rfl
  exact ⟨h, Plan.ofModules_lists _ _ h⟩

end BlockPlan
