import BlockPlan.Proofs.ChildGroups

/-!
# Plans keep code points valid

Text read from a file holds code points below `0x110000` only (`Text.Valid`). The text of a plan
is made of the texts of its modules, of fixed ASCII words, of number texts and of replacement
characters, so modules whose texts are all valid (`Module.ValidText`) give a plan whose texts
are valid (`Plan.validText_ofModules`), a document whose strings and keys are valid
(`Plan.ValidText.toJson`), and written text that is valid under any style made of valid text
(`valid_write`):

    (∀ m ∈ ms, m.ValidText) → Plan.ofModules ms = .ok p → p.toJson = .ok j →
      (Json.write st j).Valid

Validity of a block is an inductive predicate over the block tree; that of a plan is a
structure with one field per list of the plan, kept by each step that builds it.
-/

namespace BlockPlan

/-- Every code point of the text is below `0x110000`. -/
def Text.Valid (t : Text) : Prop := ∀ c ∈ t.points, c < 0x110000

namespace Text

@[simp] theorem valid_append {a b : Text} : (a ++ b).Valid ↔ a.Valid ∧ b.Valid :=
  List.forall_mem_append

@[simp] theorem valid_ofString (s : String) : (ofString s).Valid := ofString_points_lt s

@[simp] theorem valid_empty : Text.empty.Valid := fun _ h => nomatch h

theorem Valid.scrub {t : Text} (ht : t.Valid) : t.scrub.Valid := by
  intro c hc
  obtain ⟨d, hd, hcd⟩ := List.mem_flatMap.1 hc
  split at hcd
  · simp only [List.mem_cons, List.not_mem_nil, or_false, or_self] at hcd
    omega
  · rw [List.mem_singleton.1 hcd]
    exact ht d hd

theorem Valid.replicate {t : Text} (ht : t.Valid) (n : Nat) : (Text.replicate n t).Valid := by
  intro c hc
  obtain ⟨l, hl, hcl⟩ := List.mem_flatten.1 hc
  rw [List.eq_of_mem_replicate hl] at hcl
  exact ht c hcl

end Text

/-! ## Valid modules -/

/-- The texts a block holds itself, its children apart, are valid. -/
structure Block.OwnValid (b : Block) : Prop where
  kind : b.kind.Valid
  typeLabel : b.typeLabel.Valid
  nameLabel : b.nameLabel.Valid
  attributes : ∀ a ∈ b.attributes,
    a.name.Valid ∧ a.value.ValidText ∧ ∀ r ∈ a.references, r.Valid
  values : ∀ vs ∈ b.values, ∀ e ∈ vs, e.1.Valid ∧ e.2.ValidText
  moduleName : ∀ n ∈ b.moduleName, n.Valid
  moduleSource : b.moduleSource.Valid
  moduleAddress : b.moduleAddress.Valid

/-- Every text of a block and of its children at any depth is valid. -/
inductive Block.ValidText : Block → Prop
  | mk {b : Block} : b.OwnValid → (∀ c ∈ b.children, Block.ValidText c) → Block.ValidText b

/-- Every text of a module is valid, as in every module read from a file. -/
structure Module.ValidText (m : Module) : Prop where
  name : m.name.Valid
  source : m.source.Valid
  blocks : ∀ b ∈ m.blocks, b.ValidText

theorem Block.ValidText.own {b : Block} (h : b.ValidText) : b.OwnValid := by
  cases h with
  | mk hown _ => exact hown

/-! ## Valid JSON -/

namespace Json

/-- Every string and every key of a JSON value is valid text. -/
inductive ValidText : Json → Prop
  | null : ValidText .null
  | bool (b : Bool) : ValidText (.bool b)
  | int (n : Int) : ValidText (.int n)
  | float (x : Float) : ValidText (.float x)
  | str {s : Text} : s.Valid → ValidText (.str s)
  | arr {items : List Json} : (∀ j ∈ items, ValidText j) → ValidText (.arr items)
  | obj {fields : List (Text × Json)} : (∀ f ∈ fields, f.1.Valid) →
      (∀ f ∈ fields, ValidText f.2) → ValidText (.obj fields)

/-- Members whose keys and values are valid. -/
def ValidFields (fields : List (Text × Json)) : Prop := ∀ f ∈ fields, f.1.Valid ∧ f.2.ValidText

@[simp] theorem validText_null : Json.null.ValidText := .null

@[simp] theorem validText_int (n : Int) : (Json.int n).ValidText := .int n

@[simp] theorem validText_str {s : Text} : (Json.str s).ValidText ↔ s.Valid :=
  ⟨fun h => by cases h with | str hs => exact hs, .str⟩

@[simp] theorem validText_arr {items : List Json} :
    (Json.arr items).ValidText ↔ ∀ j ∈ items, j.ValidText :=
  ⟨fun h => by cases h with | arr hs => exact hs, .arr⟩

@[simp] theorem validText_obj {fields : List (Text × Json)} :
    (Json.obj fields).ValidText ↔ ValidFields fields := by
  constructor
  · intro h
    cases h with
    | obj hk hv => exact fun f hf => ⟨hk f hf, hv f hf⟩
  · intro h
    exact .obj (fun f hf => (h f hf).1) (fun f hf => (h f hf).2)

@[simp] theorem validFields_nil : ValidFields [] := fun _ h => nomatch h

@[simp] theorem validFields_cons {f : Text × Json} {fields : List (Text × Json)} :
    ValidFields (f :: fields) ↔ (f.1.Valid ∧ f.2.ValidText) ∧ ValidFields fields :=
  List.forall_mem_cons

@[simp] theorem validFields_append {fs gs : List (Text × Json)} :
    ValidFields (fs ++ gs) ↔ ValidFields fs ∧ ValidFields gs :=
  List.forall_mem_append

theorem AllJoined.validText {j : Json} (h : AllJoined j) : j.ValidText := by
  induction h with
  | null => exact .null
  | bool b => exact .bool b
  | int n => exact .int n
  | float x => exact .float x
  | str hs => exact .str hs.lt
  | arr _ ih => exact .arr ih
  | obj hk _ ih => exact .obj (fun f hf => (hk f hf).lt) ih

theorem validFields_putEntry {fields : List (Text × Json)} (h : ValidFields fields) {k : Text}
    (hk : k.Valid) {j : Json} (hj : j.ValidText) : ValidFields (putEntry fields k j) :=
  mem_putEntry fields k j Text.Valid ValidText h hk hj

end Json

/-! ## Names and values of valid blocks -/

namespace Block

variable {b : Block}

theorem OwnValid.textAttribute (hb : b.OwnValid) {name s : Text}
    (h : b.textAttribute? name = some s) : s.Valid := by
  unfold textAttribute? at h
  split at h
  · rename_i n refs ha
    cases h
    have hmem := List.mem_of_find?_eq_some ha
    obtain ⟨-, hv, -⟩ := hb.attributes _ hmem
    cases hv with
    | str hs => exact hs
  · cases h

theorem OwnValid.localName (hb : b.OwnValid) : b.localName.Valid := by
  unfold Block.localName
  split <;> simp [hb.typeLabel, hb.nameLabel]

theorem OwnValid.fullName (hb : b.OwnValid) : b.fullName.Valid := by
  unfold Block.fullName
  split <;> simp [hb.moduleAddress, hb.localName]

theorem OwnValid.provider (hb : b.OwnValid) : b.provider.Valid := by
  unfold Block.provider
  cases h : b.textAttribute? "provider" with
  | some s => exact hb.textAttribute h
  | none => exact fun c hc => hb.typeLabel c ((List.takeWhile_sublist _).subset hc)

theorem OwnValid.providerName (hb : b.OwnValid) : (Plan.providerName b).Valid := by
  unfold Plan.providerName
  split
  · rename_i s hs
    split
    · exact hb.typeLabel
    · exact hb.textAttribute hs
  · exact hb.typeLabel

end Block

theorem Value.ValidText.toJson {v : Value} (hv : v.ValidText) {j : Json} (h : v.toJson = .ok j) :
    j.ValidText :=
  (Value.allJoined_toJsonWithin false _ v j h hv).validText

theorem validFields_marshalValues (kind : Text) (vals : List (Text × Value))
    (hvals : ∀ e ∈ vals, e.1.Valid ∧ e.2.ValidText) (vs : List (Text × Json))
    (h : marshalValues kind vals = .ok vs) : Json.ValidFields vs := by
  intro f hf
  obtain ⟨e, he, hef⟩ := exists_mem_of_mapM_ok _ _ _ h f hf
  obtain ⟨j, hj, rfl⟩ := (map_eq_ok_iff _ _ _).1 hef
  obtain ⟨hk, hv⟩ := hvals e (List.mem_filter.1 he).1
  have htoJson : e.2.toJson = .ok j := by
    rw [← toOption_eq_some_iff, ← marshalEntry_toOption kind e.1, toOption_eq_some_iff]
    exact hj
  exact ⟨hk, hv.toJson htoJson⟩

/-- Adding a child's planned values under a valid kind keeps members valid. -/
theorem validFields_addChild (m : List (Text × Json)) (hm : Json.ValidFields m) (kind : Text)
    (hk : kind.Valid) (planned : Json) (hp : planned.ValidText) :
    Json.ValidFields (addChild m kind planned) := by
  cases hfind : m.find? (fun e => AttributeKey.isName e.1 kind) with
  | some e =>
    rw [addChild_of_find?_some m kind planned e hfind]
    have hitems : ∀ x ∈ (PlannedSlot.items? e.2).getD [], Json.ValidText x := by
      have he := (hm e (List.mem_of_find?_eq_some hfind)).2
      cases h : e.2 with
      | arr xs =>
        rw [h] at he
        exact Json.validText_arr.1 he
      | null | bool _ | int _ | float _ | str _ | obj _ => intro x hx; cases hx
    intro f hf
    obtain ⟨x, hx, rfl⟩ := List.mem_map.1 hf
    split
    · refine ⟨(hm x hx).1, Json.validText_arr.2 fun y hy => ?_⟩
      rcases List.mem_append.1 hy with hy | hy
      · exact hitems y hy
      · rw [List.mem_singleton.1 hy]
        exact hp
    · exact hm x hx
  | none =>
    rw [addChild_of_find?_none m kind planned hfind]
    exact Json.validFields_append.2 ⟨hm, by simp [hk, AttributeKey.ofName, PlannedSlot.ofItems, hp]⟩

/-- The planned values of a block with valid text are valid members. -/
theorem Block.ValidText.plannedValues {b : Block} (hb : b.ValidText) :
    ∀ m, b.plannedValues = .ok (some m) → Json.ValidFields m := by
  induction hb with
  | mk hown hkids ih =>
    rename_i b
    intro m h
    rw [Block.plannedValues_eq_addChildren] at h
    obtain ⟨vs, hvs, h⟩ := (bind_eq_ok_iff _ _ _).1 h
    have hownValid : ∀ m ∈ vs, Json.ValidFields m := by
      intro m hm
      cases hv : b.values with
      | none =>
        rw [hv] at hvs
        cases hvs
        cases hm
      | some vals =>
        rw [hv] at hvs
        obtain ⟨m', hm', rfl⟩ := (map_eq_ok_iff _ _ _).1 hvs
        cases hm
        exact validFields_marshalValues b.kind vals (hown.values vals hv) m hm'
    split at h
    · cases h
      exact hownValid m rfl
    · obtain ⟨m', hm', hsome⟩ := (map_eq_ok_iff _ _ _).1 h
      cases hsome
      obtain ⟨cs, hcs, rfl⟩ := (Block.addChildren_eq_ok_iff b _ _).1 hm'
      refine foldl_invariant _ Json.ValidFields cs (fun s c hc hs => ?_) _ ?_
      · -- each child is valid, so its kind and its planned values are
        obtain ⟨child, hchild, hkind, hplanned⟩ := exists_mem_of_forall₂ hcs c hc
        refine validFields_addChild s hs c.1 (hkind ▸ (hkids child hchild).own.kind) _ ?_
        cases hc2 : c.2 with
        | none => exact .null
        | some m'' =>
          rw [hc2] at hplanned
          exact Json.validText_obj.2 (ih child hchild m'' hplanned)
      · cases hvs' : vs with
        | none => exact Json.validFields_nil
        | some m'' => exact hownValid m'' hvs'

/-! ## Expressions -/

/-- Every key of a map of expressions is valid, and so is the JSON form of every expression. -/
def Expression.ValidMap (m : List (Text × Expression)) : Prop :=
  ∀ e ∈ m, e.1.Valid ∧ e.2.toJson.ValidText

theorem Expression.mapsToJson_eq (ms : List (List (Text × Expression))) :
    Expression.mapsToJson ms = ms.map fun m => .obj (Expression.fieldsToJson m) := by
  induction ms with
  | nil => rfl
  | cons m ms ih => rw [Expression.mapsToJson, ih, List.map_cons]

theorem Expression.fieldsToJson_eq (m : List (Text × Expression)) :
    Expression.fieldsToJson m = m.map fun e => (e.1, e.2.toJson) := by
  induction m with
  | nil => rfl
  | cons e m ih =>
    obtain ⟨k, x⟩ := e
    rw [Expression.fieldsToJson, ih, List.map_cons]

theorem Expression.ValidMap.fieldsToJson {m : List (Text × Expression)} (h : ValidMap m) :
    Json.ValidFields (Expression.fieldsToJson m) := by
  rw [Expression.fieldsToJson_eq]
  intro f hf
  obtain ⟨e, he, rfl⟩ := List.mem_map.1 hf
  exact h e he

theorem Expression.validText_references {rs : List Text} (h : ∀ r ∈ rs, r.Valid) :
    (Expression.references rs).toJson.ValidText := by
  simpa [Expression.toJson] using h

theorem Expression.validText_nested {ms : List (List (Text × Expression))}
    (h : ∀ m ∈ ms, ValidMap m) : (Expression.nested ms).toJson.ValidText := by
  simp only [Expression.toJson, Expression.mapsToJson_eq, Json.validText_arr, List.mem_map]
  rintro j ⟨m, hm, rfl⟩
  exact Json.validText_obj.2 (h m hm).fieldsToJson

/-- Appending under a valid key an item that holds keeps every key and item holding. -/
theorem mem_appendUnder {α : Type} (m : List (Text × List α)) (k : Text) (item : α)
    (P : Text → Prop) (Q : α → Prop) (hm : ∀ e ∈ m, P e.1 ∧ ∀ x ∈ e.2, Q x) (hk : P k)
    (hitem : Q item) : ∀ e ∈ appendUnder m k item, P e.1 ∧ ∀ x ∈ e.2, Q x := by
  unfold appendUnder
  split
  · intro e he
    obtain ⟨e', he', rfl⟩ := List.mem_map.1 he
    split
    · refine ⟨(hm e' he').1, fun x hx => ?_⟩
      rcases List.mem_append.1 hx with hx | hx
      · exact (hm e' he').2 x hx
      · rw [List.mem_singleton.1 hx]
        exact hitem
    · exact hm e' he'
  · intro e he
    rcases List.mem_append.1 he with he | he
    · exact hm e he
    · rw [List.mem_singleton.1 he]
      exact ⟨hk, fun x hx => by rw [List.mem_singleton.1 hx]; exact hitem⟩

/-- The expressions of a block with valid text are valid. -/
theorem Block.ValidText.expressions {b : Block} (hb : b.ValidText) :
    Expression.ValidMap b.expressions := by
  induction hb with
  | mk hown hkids ih =>
    rename_i b
    rw [Block.expressions_eq]
    have hattrs : Expression.ValidMap (b.attributes.foldl (fun m a =>
        if a.references.isEmpty then m else putEntry m a.name (.references a.references)) []) := by
      refine foldl_invariant _ _ _ (fun m a ha hm => ?_) _ (fun _ h => nomatch h)
      split
      · exact hm
      · obtain ⟨hname, -, hrefs⟩ := hown.attributes a ha
        exact mem_putEntry _ _ _ Text.Valid (fun e : Expression => e.toJson.ValidText) hm hname
          (Expression.validText_references hrefs)
    have hgroups : ∀ e ∈ b.children.foldl (fun m c =>
        let e := c.expressions
        if e.isEmpty then m else appendUnder m c.kind e) [],
        e.1.Valid ∧ ∀ x ∈ e.2, Expression.ValidMap x := by
      refine foldl_invariant _ (fun m : List (Text × List (List (Text × Expression))) =>
        ∀ e ∈ m, e.1.Valid ∧ ∀ x ∈ e.2, Expression.ValidMap x)
        _ (fun m c hc hm => ?_) _ (fun _ h => nomatch h)
      dsimp only
      split
      · exact hm
      · exact mem_appendUnder _ _ _ _ _ hm (hkids c hc).own.kind (ih c hc)
    refine foldl_invariant _ _ _ (fun m k hk hm => ?_) _ hattrs
    exact mem_putEntry _ _ _ Text.Valid (fun e : Expression => e.toJson.ValidText) hm (hgroups k hk).1
      (Expression.validText_nested (hgroups k hk).2)

/-! ## Valid plans -/

/-- The texts of a planned resource are valid. -/
structure PlannedResource.ValidText (r : PlannedResource) : Prop where
  address : r.address.Valid
  type : r.type.Valid
  name : r.name.Valid
  values : ∀ m ∈ r.values, Json.ValidFields m

/-- The texts of a change are valid. -/
structure Change.ValidText (c : Change) : Prop where
  address : c.address.Valid
  moduleAddress : c.moduleAddress.Valid
  type : c.type.Valid
  name : c.name.Valid
  after : ∀ m ∈ c.after, Json.ValidFields m

/-- The texts of a declaration are valid. -/
structure Declaration.ValidText (d : Declaration) : Prop where
  address : d.address.Valid
  type : d.type.Valid
  name : d.name.Valid
  providerKey : d.providerKey.Valid
  expressions : Expression.ValidMap d.expressions

/-- The texts of a provider configuration are valid. -/
structure ProviderConfig.ValidText (c : ProviderConfig) : Prop where
  name : c.name.Valid
  region : c.region.Valid

/-- The texts of a module call are valid. -/
structure ModuleCall.ValidText (c : ModuleCall) : Prop where
  source : c.source.Valid
  declarations : ∀ d ∈ c.declarations, d.ValidText

/-- Every text of a plan is valid. -/
structure Plan.ValidText (p : Plan) : Prop where
  rootResources : ∀ r ∈ p.rootResources, r.ValidText
  childResources : ∀ r ∈ p.childResources, r.ValidText
  changes : ∀ c ∈ p.changes, c.ValidText
  providers : ∀ e ∈ p.providers, e.1.Valid ∧ e.2.ValidText
  rootDeclarations : ∀ d ∈ p.rootDeclarations, d.ValidText
  calls : ∀ e ∈ p.calls, e.1.Valid ∧ e.2.ValidText

namespace Plan

theorem validText_empty : empty.ValidText := by
  constructor <;> intro _ h <;> cases h

/-- Adding a valid declaration to a call under a valid name and source keeps the calls valid. -/
theorem validText_addToCall (calls : List (Text × ModuleCall))
    (hcalls : ∀ e ∈ calls, e.1.Valid ∧ e.2.ValidText) {name source : Text} (hname : name.Valid)
    (hsource : source.Valid) {d : Declaration} (hd : d.ValidText) :
    ∀ e ∈ addToCall calls name source d, e.1.Valid ∧ e.2.ValidText := by
  unfold addToCall
  split
  · intro e he
    obtain ⟨e', he', rfl⟩ := List.mem_map.1 he
    obtain ⟨hk, hc⟩ := hcalls e' he'
    split
    · exact ⟨hk, hc.source, List.forall_mem_append.2
        ⟨hc.declarations, List.forall_mem_singleton.2 hd⟩⟩
    · exact ⟨hk, hc⟩
  · exact List.forall_mem_append.2 ⟨hcalls, List.forall_mem_singleton.2
      ⟨hname, hsource, List.forall_mem_singleton.2 hd⟩⟩

/-- Recording a provider block with valid text keeps the plan and the default key valid. -/
theorem ValidText.addProvider {acc : Plan × Text} (hacc : acc.1.ValidText) (hkey : acc.2.Valid)
    {b : Block} (hb : b.OwnValid) :
    (addProvider acc b).1.ValidText ∧ (addProvider acc b).2.Valid := by
  unfold Plan.addProvider
  split
  · have hname := hb.providerName
    have hregion : ((b.textAttribute? "region").getD "").Valid := by
      cases h : b.textAttribute? "region" with
      | none => exact Text.valid_ofString ""
      | some s => exact hb.textAttribute h
    refine ⟨⟨hacc.rootResources, hacc.childResources, hacc.changes,
      mem_putEntry _ _ _ Text.Valid ProviderConfig.ValidText hacc.providers hname
        ⟨hname, hregion⟩, hacc.rootDeclarations, hacc.calls⟩, ?_⟩
    split
    · exact hname
    · exact hkey
  · exact ⟨hacc, hkey⟩

/-- Recording a resource block with valid text and valid planned values keeps a plan valid. -/
theorem ValidText.record {p : Plan} (hp : p.ValidText) {key : Text} (hkey : key.Valid)
    {b : Block} (hb : b.ValidText) {v : Option (List (Text × Json))}
    (hv : ∀ m ∈ v, Json.ValidFields m) : (p.record key b v).ValidText := by
  have hown := hb.own
  have hres : (PlannedResource.ofBlock b v).ValidText :=
    ⟨hown.fullName, hown.typeLabel, hown.nameLabel, hv⟩
  have hchanges : ∀ c ∈ p.changes ++ [Change.ofBlock b v], c.ValidText :=
    List.forall_mem_append.2 ⟨hp.changes, List.forall_mem_singleton.2
      ⟨hown.fullName, hown.moduleAddress, hown.typeLabel, hown.nameLabel, hv⟩⟩
  unfold Plan.record
  split
  · -- declared in the call named by the block's module name
    have hcall : (b.moduleName.getD Text.empty).Valid := by
      cases h : b.moduleName with
      | none => exact Text.valid_empty
      | some n => exact hown.moduleName n h
    exact ⟨hp.rootResources,
      List.forall_mem_append.2 ⟨hp.childResources, List.forall_mem_singleton.2 hres⟩,
      hchanges, hp.providers, hp.rootDeclarations,
      validText_addToCall _ hp.calls hcall hown.moduleSource
        ⟨hown.localName, hown.typeLabel, hown.nameLabel,
          by simp [hcall, hown.provider], hb.expressions⟩⟩
  · -- declared at the root under its provider key
    refine ⟨List.forall_mem_append.2 ⟨hp.rootResources, List.forall_mem_singleton.2 hres⟩,
      hp.childResources, hchanges, hp.providers,
      List.forall_mem_append.2 ⟨hp.rootDeclarations, List.forall_mem_singleton.2
        ⟨hown.fullName, hown.typeLabel, hown.nameLabel, ?_, hb.expressions⟩⟩, hp.calls⟩
    split
    · rename_i s hs
      split
      · exact hkey
      · exact hown.textAttribute hs
    · exact hkey

/-- Recording a module with valid text keeps a plan valid. -/
theorem ValidText.addModule {p p' : Plan} (hp : p.ValidText) {m : Module} (hm : m.ValidText)
    (h : p.addModule m = .ok p') : p'.ValidText := by
  have hprov : (p.addProviders m.blocks).1.ValidText ∧ (p.addProviders m.blocks).2.Valid :=
    foldl_invariant _ (fun acc : Plan × Text => acc.1.ValidText ∧ acc.2.Valid) m.blocks
      (fun acc b hb hacc => hacc.1.addProvider hacc.2 (hm.blocks b hb).own) _
      ⟨hp, Text.valid_empty⟩
  unfold Plan.addModule at h
  rcases hpk : p.addProviders m.blocks with ⟨q, key⟩
  rw [hpk] at h hprov
  refine foldlM_invariant _ ValidText m.blocks (fun s b s' hb hs hstep => ?_) q p' hprov.1 h
  split at hstep
  · unfold addResource at hstep
    obtain ⟨v, hv, rfl⟩ := (map_eq_ok_iff _ _ _).1 hstep
    refine hs.record hprov.2 (hm.blocks b hb) fun m' hm' => ?_
    rw [Option.mem_def] at hm'
    subst hm'
    exact (hm.blocks b hb).plannedValues m' (Block.plannedValues_of_within hv)
  · cases hstep
    exact hs

theorem validText_ofModules (ms : List Module) (hms : ∀ m ∈ ms, m.ValidText) (p : Plan)
    (h : ofModules ms = .ok p) : p.ValidText :=
  foldlM_invariant _ ValidText ms (fun _ m _ hm hq hstep => hq.addModule (hms m hm) hstep) _ _
    validText_empty h

end Plan

/-! ## Valid documents -/

theorem validText_payload (m : List (Text × Json)) (hm : Json.ValidFields m) (j : Json)
    (h : payload m = .ok j) : j.ValidText := by
  unfold payload at h
  obtain ⟨fields, hfields, hj⟩ := (bind_eq_ok_iff _ _ _).1 h
  cases hj
  refine Json.validText_obj.2 (foldlM_invariant _ Json.ValidFields m
    (fun s e s' he hs hstep => ?_) [] fields Json.validFields_nil hfields)
  split at hstep
  · cases hstep
  · cases hstep
    exact Json.validFields_putEntry hs (hm e he).1.scrub (hm e he).2

theorem validText_optionalPayload (v : Option (List (Text × Json)))
    (hv : ∀ m ∈ v, Json.ValidFields m) (j : Json) (h : optionalPayload v = .ok j) :
    j.ValidText := by
  cases v with
  | none =>
    cases h
    exact .null
  | some m => exact validText_payload m (hv m rfl) j h

theorem PlannedResource.ValidText.toJson {r : PlannedResource} (hr : r.ValidText) {j : Json}
    (h : r.toJson = .ok j) : j.ValidText := by
  unfold PlannedResource.toJson at h
  obtain ⟨values, hvalues, hj⟩ := (bind_eq_ok_iff _ _ _).1 h
  cases hj
  have hv := validText_optionalPayload r.values hr.values values hvalues
  simp only [Json.validText_obj, Json.validFields_cons, Text.valid_ofString, Json.validText_str,
    hr.address, hr.type, hr.name, Json.validText_int, hv, Json.validFields_nil, and_self]

theorem Change.ValidText.toJson {c : Change} (hc : c.ValidText) {j : Json}
    (h : c.toJson = .ok j) : j.ValidText := by
  unfold Change.toJson at h
  obtain ⟨after, hafter, hj⟩ := (bind_eq_ok_iff _ _ _).1 h
  cases hj
  have hv := validText_optionalPayload c.after hc.after after hafter
  simp only [Json.validText_obj, Json.validFields_cons, Text.valid_ofString, Json.validText_str,
    hc.address, hc.moduleAddress, hc.type, hc.name, Json.validText_arr, List.mem_cons,
    List.not_mem_nil, or_false, forall_eq, Json.validText_null, hv, Json.validFields_nil, and_self]

theorem Declaration.ValidText.toJson {d : Declaration} (hd : d.ValidText) {j : Json}
    (h : d.toJson = .ok j) : j.ValidText := by
  unfold Declaration.toJson at h
  obtain ⟨exprs, hexprs, hj⟩ := (bind_eq_ok_iff _ _ _).1 h
  cases hj
  have hv := validText_payload _ hd.expressions.fieldsToJson exprs hexprs
  simp only [Json.validText_obj, Json.validFields_cons, Text.valid_ofString, Json.validText_str,
    hd.address, hd.type, hd.name, hd.providerKey, hv, Json.validFields_nil, and_self]

theorem ProviderConfig.ValidText.toJson {c : ProviderConfig} (hc : c.ValidText) :
    c.toJson.ValidText := by
  simp only [ProviderConfig.toJson, Json.validText_obj, Json.validFields_cons, Text.valid_ofString,
    Json.validText_str, hc.name, hc.region, Json.validFields_nil, and_self]

theorem ModuleCall.ValidText.toJson {c : ModuleCall} (hc : c.ValidText) {j : Json}
    (h : c.toJson = .ok j) : j.ValidText := by
  unfold ModuleCall.toJson at h
  obtain ⟨decls, hdecls, hj⟩ := (bind_eq_ok_iff _ _ _).1 h
  cases hj
  have hv : ∀ x ∈ decls, x.ValidText := by
    intro x hx
    obtain ⟨d, hd, hdx⟩ := exists_mem_of_mapM_ok _ _ _ hdecls x hx
    exact (hc.declarations d hd).toJson hdx
  simpa only [Json.validText_obj, Json.validFields_cons, Text.valid_ofString, Json.validText_str,
    hc.source, Json.validText_arr, Json.validFields_nil, true_and, and_true] using hv

theorem validText_rootModule {resources : List Json} (hres : ∀ j ∈ resources, j.ValidText)
    {rest : List (Text × Json)} (hrest : Json.ValidFields rest) :
    (rootModule resources rest).ValidText := by
  unfold rootModule
  split
  · simpa using hrest
  · simpa [hrest] using hres

theorem validText_of_mapM {α : Type} {ε : Type} (f : α → Except ε Json) (P : α → Prop)
    (hf : ∀ a j, P a → f a = .ok j → j.ValidText) (l : List α) (hl : ∀ a ∈ l, P a)
    (js : List Json) (h : l.mapM f = .ok js) : ∀ j ∈ js, j.ValidText := by
  intro j hj
  obtain ⟨a, ha, haj⟩ := exists_mem_of_mapM_ok _ _ _ h j hj
  exact hf a j (hl a ha) haj

/-- The document of a valid plan is valid. -/
theorem Plan.ValidText.toJson {p : Plan} (hp : p.ValidText) {j : Json} (h : p.toJson = .ok j) :
    j.ValidText := by
  unfold Plan.toJson at h
  obtain ⟨root, hroot, h⟩ := (bind_eq_ok_iff _ _ _).1 h
  obtain ⟨child, hchild, h⟩ := (bind_eq_ok_iff _ _ _).1 h
  obtain ⟨changes, hchanges, h⟩ := (bind_eq_ok_iff _ _ _).1 h
  obtain ⟨decls, hdecls, h⟩ := (bind_eq_ok_iff _ _ _).1 h
  obtain ⟨calls, hcalls, h⟩ := (bind_eq_ok_iff _ _ _).1 h
  cases h
  have hroot' := validText_of_mapM _ _ (fun _ _ hr h => hr.toJson h) _ hp.rootResources _ hroot
  have hchild' := validText_of_mapM _ _ (fun _ _ hr h => hr.toJson h) _ hp.childResources _ hchild
  have hchanges' := validText_of_mapM _ _ (fun _ _ hc h => hc.toJson h) _ hp.changes _ hchanges
  have hdecls' := validText_of_mapM _ _ (fun _ _ hd h => hd.toJson h) _ hp.rootDeclarations _
    hdecls
  have hproviders : Json.ValidFields
      (p.providers.foldl (fun acc e => putEntry acc e.1.scrub e.2.toJson) []) :=
    foldl_invariant _ Json.ValidFields _ (fun acc e he hacc => Json.validFields_putEntry hacc
      (hp.providers e he).1.scrub (hp.providers e he).2.toJson) _ Json.validFields_nil
  have hcalls' : Json.ValidFields calls := by
    refine foldlM_invariant _ Json.ValidFields _ (fun acc e acc' he hacc hstep => ?_) _ _
      Json.validFields_nil hcalls
    obtain ⟨x, hx, hacc'⟩ := (bind_eq_ok_iff _ _ _).1 hstep
    cases hacc'
    exact Json.validFields_putEntry hacc (hp.calls e he).1.scrub ((hp.calls e he).2.toJson hx)
  simp only [Json.validText_obj, Json.validFields_cons, Json.validFields_nil, Json.validText_str,
    Text.valid_ofString, true_and, and_true]
  exact ⟨validText_rootModule hroot' (by simpa using hchild'), Json.validText_arr.2 hchanges',
    hproviders, validText_rootModule hdecls' (by simpa using hcalls')⟩

/-! ## Valid written text -/

namespace Json

/-- The texts a style writes between items and keys, and its indent, are valid. -/
structure Style.Valid (st : Style) : Prop where
  itemSep : st.itemSep.Valid
  keySep : st.keySep.Valid
  indent : ∀ u ∈ st.indent, u.Valid

theorem escapePoint_valid (ascii : Bool) (c : Nat) (hc : c < 0x110000) :
    ∀ d ∈ escapePoint ascii c, d < 0x110000 := by
  have hesc : ∀ n, ∀ d ∈ unicodeEscape n, d < 0x110000 := fun _ => Text.valid_ofString _
  rcases escapePoint_shape ascii c with ⟨e, he, h⟩ | ⟨-, h⟩ | ⟨-, n, m, h⟩ | ⟨-, -, h⟩ <;> rw [h]
  · intro d hd
    simp only [List.mem_cons, List.not_mem_nil, or_false] at hd
    omega
  · exact hesc c
  · exact List.forall_mem_append.2 ⟨hesc n, hesc m⟩
  · simpa using hc

theorem valid_quote (ascii : Bool) {t : Text} (ht : t.Valid) : (quote ascii t).Valid := by
  intro c hc
  simp only [quote] at hc
  rcases List.mem_append.1 hc with hc | hc
  · rcases List.mem_cons.1 hc with rfl | hc
    · decide
    · obtain ⟨d, hd, hc⟩ := List.mem_flatMap.1 hc
      exact escapePoint_valid ascii d (ht d hd) c hc
  · rw [List.mem_singleton.1 hc]
    decide

theorem valid_newline {u : Text} (hu : u.Valid) (level : Nat) : (newline u level).Valid :=
  Text.valid_append.2 ⟨fun c hc => by rw [List.mem_singleton.1 hc]; decide, hu.replicate level⟩

theorem Style.Valid.separator {st : Style} (hst : st.Valid) (level : Nat) :
    (separator st level).Valid := by
  unfold Json.separator
  split
  · exact hst.itemSep
  · rename_i unit hunit
    exact Text.valid_append.2 ⟨hst.itemSep, valid_newline (hst.indent unit hunit) level⟩

theorem valid_atom (st : Style) (level : Nat) (j : Json) (cs : List Char)
    (h : atomChars j = some cs) : (render st level j).Valid := by
  intro c hc
  rw [render_atom st level j cs h] at hc
  obtain ⟨ch, -, rfl⟩ := List.mem_map.1 hc
  exact char_toNat_lt ch

section Render

variable {st : Style} (hst : st.Valid)
include hst

mutual

/-- Valid JSON is written as valid text under a style made of valid text. -/
theorem valid_render (level : Nat) : (j : Json) → j.ValidText → (render st level j).Valid
  | .null, _ => valid_atom st level .null _ rfl
  | .bool b, _ => valid_atom st level (.bool b) _ rfl
  | .int n, _ => valid_atom st level (.int n) _ rfl
  | .float x, _ => valid_atom st level (.float x) _ rfl
  | .str s, h => valid_quote st.ascii (validText_str.1 h)
  | .arr [], _ => Text.valid_ofString _
  | .arr (j :: items), h => by
    have hitems := validText_arr.1 h
    show (match st.indent with
      | none => "[" ++ renderItems st level (j :: items) ++ "]"
      | some unit =>
        "[" ++ newline unit (level + 1) ++ renderItems st (level + 1) (j :: items) ++
          newline unit level ++ "]").Valid
    split
    · simp only [Text.valid_append, Text.valid_ofString, valid_renderItems level (j :: items) hitems,
        and_self]
    · rename_i unit hunit
      have hu := hst.indent unit hunit
      simp only [Text.valid_append, Text.valid_ofString, valid_newline hu,
        valid_renderItems (level + 1) (j :: items) hitems, and_self]
  | .obj [], _ => Text.valid_ofString _
  | .obj (f :: fields), h => by
    have hfields := validText_obj.1 h
    show (match st.indent with
      | none => "\x7b" ++ renderFields st level (f :: fields) ++ "\x7d"
      | some unit =>
        "\x7b" ++ newline unit (level + 1) ++ renderFields st (level + 1) (f :: fields) ++
          newline unit level ++ "\x7d").Valid
    split
    · simp only [Text.valid_append, Text.valid_ofString,
        valid_renderFields level (f :: fields) hfields, and_self]
    · rename_i unit hunit
      have hu := hst.indent unit hunit
      simp only [Text.valid_append, Text.valid_ofString, valid_newline hu,
        valid_renderFields (level + 1) (f :: fields) hfields, and_self]

theorem valid_renderItems (level : Nat) : (items : List Json) → (∀ j ∈ items, j.ValidText) →
    (renderItems st level items).Valid
  | [], _ => Text.valid_empty
  | [j], h => valid_render level j (h j List.mem_cons_self)
  | j :: k :: items, h => by
    show (render st level j ++ separator st level ++ renderItems st level (k :: items)).Valid
    simp only [Text.valid_append]
    exact ⟨⟨valid_render level j (h j List.mem_cons_self), hst.separator level⟩,
      valid_renderItems level (k :: items) fun x hx => h x (List.mem_cons_of_mem j hx)⟩

theorem valid_renderFields (level : Nat) : (fields : List (Text × Json)) → ValidFields fields →
    (renderFields st level fields).Valid
  | [], _ => Text.valid_empty
  | [(key, j)], h => by
    obtain ⟨⟨hkey, hj⟩, -⟩ := validFields_cons.1 h
    show (quote st.ascii key ++ st.keySep ++ render st level j).Valid
    simp only [Text.valid_append]
    exact ⟨⟨valid_quote st.ascii hkey, hst.keySep⟩, valid_render level j hj⟩
  | (key, j) :: f :: fields, h => by
    obtain ⟨⟨hkey, hj⟩, hrest⟩ := validFields_cons.1 h
    show (quote st.ascii key ++ st.keySep ++ render st level j ++ separator st level ++
      renderFields st level (f :: fields)).Valid
    simp only [Text.valid_append]
    exact ⟨⟨⟨⟨valid_quote st.ascii hkey, hst.keySep⟩, valid_render level j hj⟩,
      hst.separator level⟩, valid_renderFields level (f :: fields) hrest⟩

end

theorem valid_write (j : Json) (hj : j.ValidText) : (write st j).Valid := valid_render hst 0 j hj

end Render

end Json

end BlockPlan
