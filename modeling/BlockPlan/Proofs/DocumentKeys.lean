import BlockPlan.Proofs.ReadBack
import BlockPlan.Proofs.References

/-!
# Plan documents read back as themselves

A JSON value is read back from its written text as itself when its numbers read back and each of
its objects has distinct keys (`Json.RoundTrips`, `Json.readBack_eq_toValue`). The document of
every plan built from modules whose blocks have values under distinct keys, as a map has them
(`Block.ValuesApart`), is such a value (`Plan.roundTrips_ofModules`, then
`Plan.RoundTrips.toJson`):

    ofModules ms = .ok p → p.toJson = .ok j → j.RoundTrips

* the JSON form of a value holds finite doubles and whole numbers of at most `digitLimit`
  digits, and puts the members of its objects one by one (`Value.roundTrips_toJsonWithin`);
* planned values keep the keys of a block's own values and add each kind of child once
  (`Block.roundTripFields_plannedValues`);
* the expressions of any block are put one by one under their names
  (`Block.roundTripMap_expressions`);
* every object the document adds has fixed distinct keys, or names put one by one.
-/

namespace BlockPlan

@[simp] theorem Text.ofString_inj {a b : String} : Text.ofString a = Text.ofString b ↔ a = b := by
  constructor
  · intro h
    have h' : a.toList.map Char.toNat = b.toList.map Char.toNat := congrArg Text.points h
    have hinj : Function.Injective Char.toNat := fun c d hcd => Char.ext (UInt32.toNat_inj.1 hcd)
    exact String.toList_injective (List.map_injective_iff.2 hinj h')
  · rintro rfl
    rfl

theorem Text.append_cancel_left {s a b : Text} (h : s ++ a = s ++ b) : a = b := by
  obtain ⟨s⟩ := s
  obtain ⟨a⟩ := a
  obtain ⟨b⟩ := b
  have hpoints : s ++ a = s ++ b := congrArg Text.points h
  rw [List.append_cancel_left hpoints]

namespace Json

/-! ## Members that read back -/

/-- Members whose keys are distinct and whose values read back as themselves. -/
def RoundTripFields (fields : List (Text × Json)) : Prop :=
  (fields.map Prod.fst).Nodup ∧ ∀ f ∈ fields, f.2.RoundTrips

@[simp] theorem roundTrips_obj {fields : List (Text × Json)} :
    (Json.obj fields).RoundTrips ↔ RoundTripFields fields := by
  constructor
  · intro h
    cases h with
    | obj hkeys hvalues => exact ⟨hkeys, hvalues⟩
  · intro h
    exact .obj h.1 h.2

@[simp] theorem roundTrips_arr {items : List Json} :
    (Json.arr items).RoundTrips ↔ ∀ j ∈ items, j.RoundTrips := by
  constructor
  · intro h
    cases h with
    | arr hitems => exact hitems
  · exact .arr

@[simp] theorem roundTrips_null : Json.null.RoundTrips := .null

@[simp] theorem roundTrips_str (s : Text) : (Json.str s).RoundTrips := .str s

theorem roundTripFields_nil : RoundTripFields [] := ⟨List.nodup_nil, nofun⟩

theorem RoundTripFields.putEntry {fields : List (Text × Json)} (h : RoundTripFields fields)
    (k : Text) {j : Json} (hj : j.RoundTrips) : RoundTripFields (BlockPlan.putEntry fields k j) :=
  ⟨nodup_of_keys_eq_ite (keys_putEntry fields k j) h.1, fun f hf =>
    (mem_putEntry fields k j (fun _ => True) RoundTrips (fun e he => ⟨trivial, h.2 e he⟩)
      trivial hj f hf).2⟩

end Json

open Json

/-! ## The JSON forms of values -/

/-- The JSON form of a value, found with doubles that are no number refused, reads back as
itself: its doubles are finite, its whole numbers not too long, and the members of each object
are put one by one under their key texts. -/
theorem Value.roundTrips_toJsonWithin (lenient : Bool) (fuel : Nat) (v : Value) :
    lenient = false → ∀ j, v.toJsonWithin lenient fuel = .ok j → j.RoundTrips := by
  fun_induction Value.toJsonWithin lenient fuel v with
  | case1 =>
    intro _ j h
    cases h
    exact .null
  | case2 =>
    intro _ j h
    cases h
    exact .bool _
  | case3 | case6 | case8 | case9 | case10 | case11 | case13 | case14 =>
    intro _ j h
    cases h
  | case4 _ _ n hlong =>
    intro _ j h
    cases h
    exact .int (Bool.of_not_eq_true hlong)
  | case5 _ _ x hfinite =>
    intro hl j h
    cases h
    subst hl
    exact .float (by simpa using hfinite)
  | case7 =>
    intro _ j h
    cases h
    exact .str _
  | case12 _ _ _ _ ih =>
    intro hl j h
    exact ih hl j h
  | case15 _ _ xs ih | case16 _ _ xs ih =>
    intro hl j h
    obtain ⟨js, hjs, rfl⟩ := (map_eq_ok_iff _ _ _).1 h
    refine .arr fun j' hj' => ?_
    obtain ⟨x, -, hfx⟩ := exists_mem_of_mapM_ok _ _ _ hjs j' hj'
    exact ih x hl j' hfx
  | case17 lenient _ kvs step ih =>
    intro hl j h
    obtain ⟨fields, hfields, hj⟩ := (bind_eq_ok_iff _ _ _).1 h
    cases hj
    refine roundTrips_obj.2 (foldlM_invariant step RoundTripFields kvs
      (fun acc entry acc' _ hacc hstep => ?_) [] fields roundTripFields_nil hfields)
    obtain ⟨kt, -, hrest⟩ := (bind_eq_ok_iff _ _ _).1 hstep
    obtain ⟨j', hj', hput⟩ := (bind_eq_ok_iff _ _ _).1 hrest
    cases hput
    exact hacc.putEntry kt.fuse (ih entry hl j' hj')
  | case18 _ _ xs _ ih | case19 _ _ xs _ ih =>
    intro hl j h
    simp only [bind_pure_comp] at h
    obtain ⟨keyed, -, hsorted⟩ := (bind_eq_ok_iff _ _ _).1 h
    obtain ⟨js, hjs, rfl⟩ := (map_eq_ok_iff _ _ _).1 hsorted
    refine .arr fun j' hj' => ?_
    obtain ⟨p, -, hpj⟩ := exists_mem_of_mapM_ok _ _ _ hjs j' hj'
    exact ih p.2 hl j' hpj

theorem Value.roundTrips_toJson {v : Value} {j : Json} (h : v.toJson = .ok j) : j.RoundTrips :=
  Value.roundTrips_toJsonWithin false _ v rfl j h

/-! ## Planned values -/

/-- The values of a block are apart when their keys are distinct, as the keys of a map are. -/
def Block.ValuesApart (b : Block) : Prop := ∀ vs ∈ b.values, (vs.map Prod.fst).Nodup

/-- The JSON forms of values under distinct keys are members that read back. -/
theorem roundTripFields_marshalValues (kind : Text) (vals : List (Text × Value))
    (hvals : (vals.map Prod.fst).Nodup) (vs : List (Text × Json))
    (h : marshalValues kind vals = .ok vs) : RoundTripFields vs := by
  refine ⟨?_, fun f hf => ?_⟩
  · -- leaving `count` out keeps the other keys, in order
    rw [marshalValues_keys kind vals vs h]
    exact (List.filter_sublist.map Prod.fst).nodup hvals
  · obtain ⟨e, -, hef⟩ := exists_mem_of_mapM_ok _ _ _ h f hf
    obtain ⟨j, hj, rfl⟩ := (map_eq_ok_iff _ _ _).1 hef
    have htoJson : e.2.toJson = .ok j := by
      rw [← toOption_eq_some_iff, ← marshalEntry_toOption kind e.1, toOption_eq_some_iff]
      exact hj
    exact Value.roundTrips_toJson htoJson

/-- Adding a child's planned values under its kind keeps the keys distinct: the kind is either a
key already, whose list gets the child, or a new key at the end. -/
theorem RoundTripFields.addChild {m : List (Text × Json)} (hm : RoundTripFields m) (kind : Text)
    {planned : Json} (hp : planned.RoundTrips) : RoundTripFields (addChild m kind planned) := by
  refine ⟨?_, ?_⟩
  · rw [addChild_keys]
    split
    · rw [List.append_nil]
      exact hm.1
    · rename_i hany
      refine List.nodup_append.2 ⟨hm.1, List.nodup_singleton _, ?_⟩
      intro k hk k' hk' hkk'
      rw [List.mem_singleton] at hk'
      subst hkk' hk'
      obtain ⟨e, he, rfl⟩ := List.mem_map.1 hk
      exact hany (List.any_eq_true.2 ⟨e, he, by simp [AttributeKey.isName]⟩)
  · cases hfind : m.find? (fun e => AttributeKey.isName e.1 kind) with
    | some e =>
      rw [addChild_of_find?_some m kind planned e hfind]
      have hitems : ∀ x ∈ (PlannedSlot.items? e.2).getD [], Json.RoundTrips x := by
        have he := hm.2 e (List.mem_of_find?_eq_some hfind)
        cases h : e.2 with
        | arr xs =>
          rw [h] at he
          exact roundTrips_arr.1 he
        | null | bool _ | int _ | float _ | str _ | obj _ => intro x hx; cases hx
      intro f hf
      obtain ⟨x, hx, rfl⟩ := List.mem_map.1 hf
      split
      · refine roundTrips_arr.2 fun y hy => ?_
        rcases List.mem_append.1 hy with hy | hy
        · exact hitems y hy
        · rw [List.mem_singleton.1 hy]
          exact hp
      · exact hm.2 x hx
    | none =>
      rw [addChild_of_find?_none m kind planned hfind]
      intro f hf
      rcases List.mem_append.1 hf with hf | hf
      · exact hm.2 f hf
      · rw [List.mem_singleton.1 hf]
        exact roundTrips_arr.2 fun y hy => by rw [List.mem_singleton.1 hy]; exact hp

/-- The planned values of a block whose tree has values apart are members that read back. -/
theorem Block.roundTripFields_plannedValues (b : Block) (hb : ∀ d ∈ b.tree, d.ValuesApart) :
    ∀ m, b.plannedValues = .ok (some m) → RoundTripFields m := by
  induction b using Block.induction with
  | step b ih =>
    intro m h
    rw [Block.tree_eq] at hb
    rw [Block.plannedValues_eq_addChildren] at h
    obtain ⟨vs, hvs, h⟩ := (bind_eq_ok_iff _ _ _).1 h
    have hown : ∀ m ∈ vs, RoundTripFields m := by
      intro m hm
      cases hv : b.values with
      | none =>
        rw [hv] at hvs
        cases hvs
        cases hm
      | some vals =>
        rw [hv] at hvs
        obtain ⟨m', hm', rfl⟩ := (map_eq_ok_iff _ _ _).1 hvs
        cases hm
        exact roundTripFields_marshalValues b.kind vals (hb b List.mem_cons_self vals hv) m hm'
    split at h
    · cases h
      exact hown m rfl
    · obtain ⟨m', hm', hsome⟩ := (map_eq_ok_iff _ _ _).1 h
      cases hsome
      obtain ⟨cs, hcs, rfl⟩ := (Block.addChildren_eq_ok_iff b _ _).1 hm'
      refine foldl_invariant _ RoundTripFields cs (fun s c hc hs => ?_) _ ?_
      · -- each child's planned values read back, as an object or as null
        obtain ⟨child, hchild, -, hplanned⟩ := exists_mem_of_forall₂ hcs c hc
        refine RoundTripFields.addChild hs c.1 ?_
        cases hc2 : c.2 with
        | none => exact .null
        | some m'' =>
          rw [hc2] at hplanned
          exact roundTrips_obj.2 (ih child hchild
            (fun d hd => hb d (List.mem_cons_of_mem _ (List.mem_flatMap.2 ⟨child, hchild, hd⟩)))
            m'' hplanned)
      · cases hvs' : vs with
        | none => exact roundTripFields_nil
        | some m'' => exact hown m'' hvs'

/-! ## Expressions -/

/-- A map of expressions whose JSON members read back. -/
def Expression.RoundTripMap (m : List (Text × Expression)) : Prop :=
  RoundTripFields (Expression.fieldsToJson m)

/-- The expressions of any block are put one by one under distinct names, and so are those of
each of its children, at any depth. -/
theorem Block.roundTripMap_expressions (b : Block) : Expression.RoundTripMap b.expressions := by
  induction b using Block.induction with
  | step b ih =>
    rw [Expression.RoundTripMap, Expression.fieldsToJson_eq, Block.expressions_eq_putAll]
    refine ⟨?_, fun f hf => ?_⟩
    · rw [List.map_map]
      exact nodup_keys_putAll _
    obtain ⟨e, he, rfl⟩ := List.mem_map.1 hf
    rcases List.mem_append.1 (mem_of_mem_putAll he) with he | he
    · -- an attribute's references
      obtain ⟨a, -, rfl⟩ := List.mem_map.1 he
      simp [Expression.toJson, RoundTripFields]
    · -- the group of one kind of child, each map the expressions of a child
      obtain ⟨g, hg, rfl⟩ := List.mem_map.1 he
      simp only [Expression.toJson, Expression.mapsToJson_eq, roundTrips_arr, List.mem_map]
      rintro j ⟨m, hm, rfl⟩
      have hitem : m ∈ b.childItems.map Prod.snd :=
        (groupAll_flatMap_perm _).subset (List.mem_flatMap.2 ⟨g, hg, hm⟩)
      rw [Block.childItems, List.map_map] at hitem
      obtain ⟨c, hc, rfl⟩ := List.mem_map.1 hitem
      exact roundTrips_obj.2 (ih c (List.mem_filter.1 hc).1)

/-! ## Plans -/

/-- Everything a plan holds that its document writes as JSON members reads back. -/
structure Plan.RoundTrips (p : Plan) : Prop where
  rootResources : ∀ r ∈ p.rootResources, ∀ m ∈ r.values, RoundTripFields m
  childResources : ∀ r ∈ p.childResources, ∀ m ∈ r.values, RoundTripFields m
  changes : ∀ c ∈ p.changes, ∀ m ∈ c.after, RoundTripFields m
  rootDeclarations : ∀ d ∈ p.rootDeclarations, Expression.RoundTripMap d.expressions
  calls : ∀ e ∈ p.calls, ∀ d ∈ e.2.declarations, Expression.RoundTripMap d.expressions

namespace Plan

theorem roundTrips_empty : empty.RoundTrips := by
  constructor <;> intro _ h <;> cases h

/-- Adding a declaration to a call keeps the declarations of every call reading back. -/
theorem roundTrips_addToCall (calls : List (Text × ModuleCall))
    (hcalls : ∀ e ∈ calls, ∀ d ∈ e.2.declarations, Expression.RoundTripMap d.expressions)
    (name source : Text) {d : Declaration} (hd : Expression.RoundTripMap d.expressions) :
    ∀ e ∈ addToCall calls name source d, ∀ d' ∈ e.2.declarations,
      Expression.RoundTripMap d'.expressions := by
  unfold addToCall
  split
  · intro e he
    obtain ⟨e', he', rfl⟩ := List.mem_map.1 he
    split
    · exact List.forall_mem_append.2 ⟨hcalls e' he', List.forall_mem_singleton.2 hd⟩
    · exact hcalls e' he'
  · exact List.forall_mem_append.2 ⟨hcalls, List.forall_mem_singleton.2
      (List.forall_mem_singleton.2 hd)⟩

theorem RoundTrips.addProvider {acc : Plan × Text} (hacc : acc.1.RoundTrips) (b : Block) :
    (addProvider acc b).1.RoundTrips := by
  unfold Plan.addProvider
  split
  · exact ⟨hacc.rootResources, hacc.childResources, hacc.changes, hacc.rootDeclarations,
      hacc.calls⟩
  · exact hacc

/-- Recording a resource block whose planned values read back keeps a plan reading back. -/
theorem RoundTrips.record {p : Plan} (hp : p.RoundTrips) (key : Text) (b : Block)
    {v : Option (List (Text × Json))} (hv : ∀ m ∈ v, RoundTripFields m) :
    (p.record key b v).RoundTrips := by
  have hchanges : ∀ c ∈ p.changes ++ [Change.ofBlock b v], ∀ m ∈ c.after, RoundTripFields m :=
    List.forall_mem_append.2 ⟨hp.changes, List.forall_mem_singleton.2 hv⟩
  unfold Plan.record
  split
  · exact ⟨hp.rootResources, List.forall_mem_append.2 ⟨hp.childResources,
      List.forall_mem_singleton.2 hv⟩, hchanges, hp.rootDeclarations,
      roundTrips_addToCall _ hp.calls _ _ (Block.roundTripMap_expressions b)⟩
  · exact ⟨List.forall_mem_append.2 ⟨hp.rootResources, List.forall_mem_singleton.2 hv⟩,
      hp.childResources, hchanges, List.forall_mem_append.2 ⟨hp.rootDeclarations,
        List.forall_mem_singleton.2 (Block.roundTripMap_expressions b)⟩, hp.calls⟩

/-- Recording a module whose blocks have values apart keeps a plan reading back. -/
theorem RoundTrips.addModule {p p' : Plan} (hp : p.RoundTrips) {m : Module}
    (hm : ∀ b ∈ m.blocks, ∀ d ∈ b.tree, d.ValuesApart) (h : p.addModule m = .ok p') :
    p'.RoundTrips := by
  have hprov : (p.addProviders m.blocks).1.RoundTrips :=
    foldl_invariant _ (fun acc : Plan × Text => acc.1.RoundTrips) m.blocks
      (fun acc b _ hacc => hacc.addProvider b) _ hp
  unfold Plan.addModule at h
  rcases hpk : p.addProviders m.blocks with ⟨q, key⟩
  rw [hpk] at h hprov
  refine foldlM_invariant _ RoundTrips m.blocks (fun s b s' hb hs hstep => ?_) q p' hprov h
  split at hstep
  · unfold addResource at hstep
    obtain ⟨v, hv, rfl⟩ := (map_eq_ok_iff _ _ _).1 hstep
    refine hs.record key b fun m' hm' => ?_
    rw [Option.mem_def] at hm'
    subst hm'
    exact Block.roundTripFields_plannedValues b (hm b hb) m' (Block.plannedValues_of_within hv)
  · cases hstep
    exact hs

theorem roundTrips_ofModules (ms : List Module)
    (hms : ∀ m ∈ ms, ∀ b ∈ m.blocks, ∀ d ∈ b.tree, d.ValuesApart) (p : Plan)
    (h : ofModules ms = .ok p) : p.RoundTrips :=
  foldlM_invariant _ RoundTrips ms (fun _ m _ hm hq hstep => hq.addModule (hms m hm) hstep) _ _
    roundTrips_empty h

end Plan

/-! ## Documents -/

/-- A map chosen by the configuration is put under its scrubbed keys one by one, so it reads
back when its values do. -/
theorem roundTrips_payload (m : List (Text × Json)) (hm : ∀ f ∈ m, f.2.RoundTrips) (j : Json)
    (h : payload m = .ok j) : j.RoundTrips := by
  unfold payload at h
  obtain ⟨fields, hfields, hj⟩ := (bind_eq_ok_iff _ _ _).1 h
  cases hj
  refine roundTrips_obj.2 (foldlM_invariant _ RoundTripFields m
    (fun s e s' he hs hstep => ?_) [] fields roundTripFields_nil hfields)
  split at hstep
  · cases hstep
  · cases hstep
    exact hs.putEntry e.1.scrub (hm e he)

theorem roundTrips_optionalPayload (v : Option (List (Text × Json)))
    (hv : ∀ m ∈ v, RoundTripFields m) (j : Json) (h : optionalPayload v = .ok j) :
    j.RoundTrips := by
  cases v with
  | none =>
    cases h
    exact .null
  | some m => exact roundTrips_payload m (hv m rfl).2 j h

theorem roundTrips_one : (Json.int 1).RoundTrips := .int (by decide +kernel)

theorem PlannedResource.roundTrips_toJson {r : PlannedResource}
    (hr : ∀ m ∈ r.values, RoundTripFields m) {j : Json} (h : r.toJson = .ok j) : j.RoundTrips := by
  unfold PlannedResource.toJson at h
  obtain ⟨values, hvalues, hj⟩ := (bind_eq_ok_iff _ _ _).1 h
  cases hj
  have hv := roundTrips_optionalPayload r.values hr values hvalues
  refine roundTrips_obj.2 ⟨by simp only [List.map_cons, List.map_nil]; decide, ?_⟩
  simp [hv, roundTrips_one]

theorem Change.roundTrips_toJson {c : Change} (hc : ∀ m ∈ c.after, RoundTripFields m) {j : Json}
    (h : c.toJson = .ok j) : j.RoundTrips := by
  unfold Change.toJson at h
  obtain ⟨after, hafter, hj⟩ := (bind_eq_ok_iff _ _ _).1 h
  cases hj
  have hv := roundTrips_optionalPayload c.after hc after hafter
  refine roundTrips_obj.2 ⟨by simp only [List.map_cons, List.map_nil]; decide, ?_⟩
  simp [hv, RoundTripFields]

theorem Declaration.roundTrips_toJson {d : Declaration}
    (hd : Expression.RoundTripMap d.expressions) {j : Json} (h : d.toJson = .ok j) :
    j.RoundTrips := by
  unfold Declaration.toJson at h
  obtain ⟨exprs, hexprs, hj⟩ := (bind_eq_ok_iff _ _ _).1 h
  cases hj
  have hv := roundTrips_payload _ hd.2 exprs hexprs
  refine roundTrips_obj.2 ⟨by simp only [List.map_cons, List.map_nil]; decide, ?_⟩
  simp [hv]

theorem ProviderConfig.roundTrips_toJson (c : ProviderConfig) : c.toJson.RoundTrips := by
  simp [ProviderConfig.toJson, RoundTripFields]

theorem ModuleCall.roundTrips_toJson {c : ModuleCall}
    (hc : ∀ d ∈ c.declarations, Expression.RoundTripMap d.expressions) {j : Json}
    (h : c.toJson = .ok j) : j.RoundTrips := by
  unfold ModuleCall.toJson at h
  obtain ⟨decls, hdecls, hj⟩ := (bind_eq_ok_iff _ _ _).1 h
  cases hj
  have hv : ∀ x ∈ decls, x.RoundTrips := by
    intro x hx
    obtain ⟨d, hd, hdx⟩ := exists_mem_of_mapM_ok _ _ _ hdecls x hx
    exact Declaration.roundTrips_toJson (hc d hd) hdx
  simpa [RoundTripFields] using hv

theorem roundTrips_rootModule {resources : List Json} (hres : ∀ j ∈ resources, j.RoundTrips)
    {key : Text} (hkey : key ≠ "resources") {j : Json} (hj : j.RoundTrips) :
    (rootModule resources [(key, j)]).RoundTrips := by
  unfold rootModule
  split
  · simp [RoundTripFields, hj]
  · simpa [RoundTripFields, hj, Ne.symm hkey] using hres

/-- The document of a plan that reads back reads back. -/
theorem Plan.RoundTrips.toJson {p : Plan} (hp : p.RoundTrips) {j : Json} (h : p.toJson = .ok j) :
    j.RoundTrips := by
  unfold Plan.toJson at h
  obtain ⟨root, hroot, h⟩ := (bind_eq_ok_iff _ _ _).1 h
  obtain ⟨child, hchild, h⟩ := (bind_eq_ok_iff _ _ _).1 h
  obtain ⟨changes, hchanges, h⟩ := (bind_eq_ok_iff _ _ _).1 h
  obtain ⟨decls, hdecls, h⟩ := (bind_eq_ok_iff _ _ _).1 h
  obtain ⟨calls, hcalls, h⟩ := (bind_eq_ok_iff _ _ _).1 h
  cases h
  have hlist : ∀ {α : Type} (f : α → Except WireError Json) (P : α → Prop)
      (hf : ∀ a j, P a → f a = .ok j → j.RoundTrips) (l : List α) (hl : ∀ a ∈ l, P a)
      (js : List Json), l.mapM f = .ok js → ∀ j ∈ js, j.RoundTrips := by
    intro α f P hf l hl js h j hj
    obtain ⟨a, ha, haj⟩ := exists_mem_of_mapM_ok _ _ _ h j hj
    exact hf a j (hl a ha) haj
  have hroot' := hlist _ _ (fun _ _ hr h => PlannedResource.roundTrips_toJson hr h) _
    hp.rootResources _ hroot
  have hchild' := hlist _ _ (fun _ _ hr h => PlannedResource.roundTrips_toJson hr h) _
    hp.childResources _ hchild
  have hchanges' := hlist _ _ (fun _ _ hc h => Change.roundTrips_toJson hc h) _ hp.changes _
    hchanges
  have hdecls' := hlist _ _ (fun _ _ hd h => Declaration.roundTrips_toJson hd h) _
    hp.rootDeclarations _ hdecls
  have hproviders : RoundTripFields
      (p.providers.foldl (fun acc e => putEntry acc e.1.scrub e.2.toJson) []) :=
    foldl_invariant _ RoundTripFields _ (fun acc e _ hacc =>
      hacc.putEntry e.1.scrub (ProviderConfig.roundTrips_toJson e.2)) _ roundTripFields_nil
  have hcalls' : RoundTripFields calls := by
    refine foldlM_invariant _ RoundTripFields _ (fun acc e acc' he hacc hstep => ?_) _ _
      roundTripFields_nil hcalls
    obtain ⟨x, hx, hacc'⟩ := (bind_eq_ok_iff _ _ _).1 hstep
    cases hacc'
    exact hacc.putEntry e.1.scrub (ModuleCall.roundTrips_toJson (hp.calls e he) hx)
  refine roundTrips_obj.2 ⟨by simp only [List.map_cons, List.map_nil]; decide, ?_⟩
  simp only [List.mem_cons, List.not_mem_nil, or_false, forall_eq_or_imp, forall_eq]
  refine ⟨.str _, .str _, ?_, roundTrips_arr.2 hchanges', ?_⟩
  · refine roundTrips_obj.2 ⟨by simp only [List.map_cons, List.map_nil]; decide, ?_⟩
    simp only [List.mem_singleton, forall_eq]
    exact roundTrips_rootModule hroot' (by decide)
      (roundTrips_arr.2 (by simpa [RoundTripFields] using hchild'))
  · refine roundTrips_obj.2 ⟨by simp only [List.map_cons, List.map_nil]; decide, ?_⟩
    simp only [List.mem_cons, List.not_mem_nil, or_false, forall_eq_or_imp, forall_eq]
    exact ⟨roundTrips_obj.2 hproviders,
      roundTrips_rootModule hdecls' (by decide) (roundTrips_obj.2 hcalls')⟩

end BlockPlan
