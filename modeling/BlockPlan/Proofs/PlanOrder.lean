import BlockPlan.Proofs.SetOrder

/-!
# Plans do not depend on the order of sets

The order in which the elements of a set are met reaches a plan only through the JSON forms of
the values of its blocks, and those do not depend on it (`Value.Reorders.toJson_form_eq`). So
modules that differ only in that order (`Module.Reorders`) give the same plan text, or none:

    List.Forall₂ Module.Reorders ms ms' → (∀ x ∈ encodedValues ms, x.2.2.ValidText) →
      (Plan.render ms indent).toOption = (Plan.render ms' indent).toOption

The steps follow the plan's construction: a block's expressions, providers and record read no
value; its planned values are found alike, or not at all, with any room for the calls
(`Block.Reorders.plannedValuesWithin_toOption`, by induction on the room); the pure run `Plan.build` is then the same, and it is gated by the
same outcome (`Plan.ofModules_gated`).
-/

namespace BlockPlan

/-- `b.Reorders b'`: `b'` is `b` with the sets in the values of it and of its children, at any
depth, met in some order; keys, children and everything else as they are. -/
inductive Block.Reorders : Block → Block → Prop
  | mk {b : Block} {vs : Option (List (Text × Value))} {cs : List Block} :
      Option.Rel (List.Forall₂ fun e e' => e.1 = e'.1 ∧ e.2.Reorders e'.2) b.values vs →
      List.Forall₂ Block.Reorders b.children cs →
      Block.Reorders b { b with values := vs, children := cs }

/-- `m.Reorders m'`: `m'` is `m` with the sets in the values of its blocks met in some order. -/
inductive Module.Reorders : Module → Module → Prop
  | mk {m : Module} {bs : List Block} : List.Forall₂ Block.Reorders m.blocks bs →
      Module.Reorders m { m with blocks := bs }

/-! ## Equations without membership proofs -/

theorem Block.expressions_eq (b : Block) :
    b.expressions =
      (b.children.foldl (fun m c =>
          let e := c.expressions
          if e.isEmpty then m else appendUnder m c.kind e) []).foldl
        (fun m k => putEntry m k.1 (.nested k.2))
        (b.attributes.foldl (fun m a =>
          if a.references.isEmpty then m else putEntry m a.name (.references a.references)) []) := by
  rw [Block.expressions, List.foldl_subtype (fun _ _ _ => rfl), List.unattach_attach]
  rfl

/-! ## What a block keeps -/

theorem Block.Reorders.kind_eq {b b' : Block} (h : b.Reorders b') : b.kind = b'.kind := by
  cases h
  rfl

mutual

/-- The expressions of a block read its attributes and its children's kinds and expressions,
never its values. -/
theorem Block.Reorders.expressions_eq {b b' : Block} (h : b.Reorders b') :
    b.expressions = b'.expressions := by
  cases h with
  | mk _ hkids =>
    rw [Block.expressions_eq, Block.expressions_eq]
    congr 1
    apply foldl_eq_of_forall₂
    refine (Block.Reorders.forall₂_expressions hkids).imp ?_
    rintro c c' ⟨hk, he⟩ m
    simp only [hk, he]

theorem Block.Reorders.forall₂_expressions {cs cs' : List Block}
    (h : List.Forall₂ Block.Reorders cs cs') :
    List.Forall₂ (fun c c' => c.kind = c'.kind ∧ c.expressions = c'.expressions) cs cs' := by
  cases h with
  | nil => exact .nil
  | cons hc hrest =>
    exact .cons ⟨hc.kind_eq, hc.expressions_eq⟩ (Block.Reorders.forall₂_expressions hrest)

end

theorem Block.Reorders.record_eq {b b' : Block} (h : b.Reorders b') (p : Plan) (key : Text)
    (v : Option (List (Text × Json))) : p.record key b v = p.record key b' v := by
  have he := h.expressions_eq
  cases h
  unfold Plan.record
  rw [he]
  rfl

theorem Block.Reorders.addProvider_eq {b b' : Block} (h : b.Reorders b') (acc : Plan × Text) :
    Plan.addProvider acc b = Plan.addProvider acc b' := by
  cases h
  rfl

theorem addProviders_reorders {bs bs' : List Block} (h : List.Forall₂ Block.Reorders bs bs')
    (p : Plan) : p.addProviders bs = p.addProviders bs' :=
  foldl_eq_of_forall₂ _ _ (h.imp fun _ _ hb acc => hb.addProvider_eq acc) _

/-! ## Planned values -/

theorem marshalEntry_toOption (kind : Text) (k : Text) (v : Value) :
    (marshalEntry kind k v).toOption = v.toJson.toOption := by
  unfold marshalEntry
  cases v.toJson with
  | ok j => rfl
  | error e => cases e <;> rfl

theorem marshalValues_toOption (kind : Text) (vals : List (Text × Value)) :
    (marshalValues kind vals).toOption =
      (vals.filter fun e => !skipsEntry kind e.1).mapM
        fun e => (e.1, ·) <$> e.2.toJson.toOption := by
  rw [marshalValues, toOption_mapM]
  congr 1
  funext e
  rw [toOption_map, marshalEntry_toOption]

/-- Values under the same keys, their sets reordered, are marshalled alike, or not at all. -/
theorem marshalValues_reorders (kind : Text) {vals vals' : List (Text × Value)}
    (h : List.Forall₂ (fun e e' => e.1 = e'.1 ∧ e.2.Reorders e'.2) vals vals')
    (hv : ∀ e ∈ vals.filter (fun e => !skipsEntry kind e.1), e.2.ValidText) :
    (marshalValues kind vals).toOption = (marshalValues kind vals').toOption := by
  rw [marshalValues_toOption, marshalValues_toOption]
  have hkept := List.rel_filter (p := fun e => !skipsEntry kind e.1)
    (q := fun e => !skipsEntry kind e.1) (fun e e' he => by simp only [he.1]) h
  apply mapM_eq_of_forall₂
  refine ((List.forall₂_and_left _ _).2 ⟨hv, hkept⟩).imp ?_
  rintro ⟨k, v⟩ ⟨k', v'⟩ ⟨hvalid, hk, hr⟩
  dsimp only at hk hr ⊢
  rw [hk, hr.toJson_form_eq hvalid]

theorem ownValues_reorders (kind : Text) {vals vals' : Option (List (Text × Value))}
    (h : Option.Rel (List.Forall₂ fun e e' => e.1 = e'.1 ∧ e.2.Reorders e'.2) vals vals')
    (hv : ∀ x ∈ ((vals.getD []).filter fun e => !skipsEntry kind e.1).map
      (fun e => (e.1, kind, e.2)), x.2.2.ValidText) :
    (vals.mapM (marshalValues kind)).toOption = (vals'.mapM (marshalValues kind)).toOption := by
  cases h with
  | none => rfl
  | some hrel =>
    rw [Option.mapM_some, Option.mapM_some, toOption_map, toOption_map,
      marshalValues_reorders kind hrel fun e he => hv _ (List.mem_map_of_mem he)]

mutual

/-- Reordering the sets in the values of a block whose encoded values have valid texts changes
neither whether its planned values are found nor which. -/
theorem Block.Reorders.plannedValues_toOption {b b' : Block} (h : b.Reorders b')
    (hv : ∀ x ∈ b.encodedValues, x.2.2.ValidText) :
    b.plannedValues.toOption = b'.plannedValues.toOption := by
  cases h with
  | @mk _ vs cs hvals hkids =>
    rw [Block.encodedValues_eq, List.forall_mem_append] at hv
    rw [Block.plannedValues_eq, Block.plannedValues_eq]
    apply toOption_bind_congr _ _ _ _ (ownValues_reorders b.kind hvals hv.1)
    intro own
    have hempty : b.children.isEmpty = cs.isEmpty := by
      rw [Bool.eq_iff_iff, List.isEmpty_iff_length_eq_zero, List.isEmpty_iff_length_eq_zero,
        hkids.length_eq]
    dsimp only
    rw [← hempty]
    split
    · rfl
    · apply toOption_bind_congr _ _ _ _ _ fun _ => rfl
      rw [toOption_mapM, toOption_mapM]
      exact mapM_eq_of_forall₂ _ _ (Block.Reorders.forall₂_plannedValues hkids hv.2)

theorem Block.Reorders.forall₂_plannedValues {cs cs' : List Block}
    (h : List.Forall₂ Block.Reorders cs cs')
    (hv : ∀ x ∈ cs.flatMap Block.encodedValues, x.2.2.ValidText) :
    List.Forall₂ (fun c c' => ((c.kind, ·) <$> c.plannedValues).toOption =
      ((c'.kind, ·) <$> c'.plannedValues).toOption) cs cs' := by
  cases h with
  | nil => exact .nil
  | cons hc hrest =>
    rw [List.flatMap_cons, List.forall_mem_append] at hv
    refine .cons ?_ (Block.Reorders.forall₂_plannedValues hrest hv.2)
    rw [toOption_map, toOption_map, hc.kind_eq, hc.plannedValues_toOption hv.1]

end

/-- Reordering the sets in the values of a block whose encoded values have valid texts changes
neither whether the calls find its planned values within a room nor which. -/
theorem Block.Reorders.plannedValuesWithin_toOption (room : Nat) {b b' : Block} (h : b.Reorders b')
    (hv : ∀ x ∈ b.encodedValues, x.2.2.ValidText) :
    (b.plannedValuesWithin room).toOption = (b'.plannedValuesWithin room).toOption := by
  induction room generalizing b b' with
  | zero => rfl
  | succ room ih =>
    cases h with
    | @mk _ vs cs hvals hkids =>
      rw [Block.encodedValues_eq, List.forall_mem_append] at hv
      rw [Block.plannedValuesWithin, Block.plannedValuesWithin]
      apply toOption_bind_congr _ _ _ _ (ownValues_reorders b.kind hvals hv.1)
      intro own
      have hempty : b.children.isEmpty = cs.isEmpty := by
        rw [Bool.eq_iff_iff, List.isEmpty_iff_length_eq_zero, List.isEmpty_iff_length_eq_zero,
          hkids.length_eq]
      have hvc : ∀ c ∈ b.children, ∀ x ∈ c.encodedValues, x.2.2.ValidText :=
        fun c hc x hx => hv.2 x (List.mem_flatMap.2 ⟨c, hc, hx⟩)
      dsimp only
      rw [← hempty]
      split
      · rfl
      · apply toOption_bind_congr _ _ _ _ _ fun _ => rfl
        rw [toOption_mapM, toOption_mapM]
        apply mapM_eq_of_forall₂
        refine ((List.forall₂_and_left _ _).2 ⟨hvc, hkids⟩).imp ?_
        rintro c c' ⟨hvc', hc⟩
        rw [toOption_map, toOption_map, hc.kind_eq, ih hc hvc']

theorem Block.okValues_eq_join (b : Block) : b.okValues = b.plannedValues.toOption.join := by
  unfold Block.okValues
  cases b.plannedValues <;> rfl

theorem Block.Reorders.okValues_eq {b b' : Block} (h : b.Reorders b')
    (hv : ∀ x ∈ b.encodedValues, x.2.2.ValidText) : b.okValues = b'.okValues := by
  rw [Block.okValues_eq_join, Block.okValues_eq_join, h.plannedValues_toOption hv]

/-! ## Plans -/

theorem Module.Reorders.blocksOf {m m' : Module} (h : m.Reorders m') (kind : Text) :
    List.Forall₂ Block.Reorders (m.blocksOf kind) (m'.blocksOf kind) := by
  cases h with
  | mk hbs => exact List.rel_filter (fun b b' hb => by dsimp only; rw [hb.kind_eq]) hbs

theorem resourceBlocks_reorders {ms ms' : List Module} (h : List.Forall₂ Module.Reorders ms ms') :
    List.Forall₂ Block.Reorders (resourceBlocks ms) (resourceBlocks ms') :=
  List.rel_flatMap h fun _ _ hm => hm.blocksOf resourceKind

theorem Module.Reorders.buildModule_eq {m m' : Module} (h : m.Reorders m')
    (hv : ∀ b ∈ m.blocksOf resourceKind, ∀ x ∈ b.encodedValues, x.2.2.ValidText) (p : Plan) :
    p.buildModule m = p.buildModule m' := by
  have hres := h.blocksOf resourceKind
  cases h with
  | @mk bs hbs =>
    unfold Plan.buildModule
    rw [addProviders_reorders hbs]
    generalize p.addProviders bs = acc
    rcases acc with ⟨q, key⟩
    apply foldl_eq_of_forall₂
    refine ((List.forall₂_and_left _ _).2 ⟨hv, hres⟩).imp ?_
    rintro b b' ⟨hvb, hb⟩ r
    rw [hb.record_eq, hb.okValues_eq hvb]

theorem build_reorders {ms ms' : List Module} (h : List.Forall₂ Module.Reorders ms ms')
    (hv : ∀ b ∈ resourceBlocks ms, ∀ x ∈ b.encodedValues, x.2.2.ValidText) :
    Plan.build ms = Plan.build ms' := by
  unfold Plan.build
  apply foldl_eq_of_forall₂
  have hvm : ∀ m ∈ ms, ∀ b ∈ m.blocksOf resourceKind, ∀ x ∈ b.encodedValues, x.2.2.ValidText :=
    fun m hm b hb => hv b (List.mem_flatMap.2 ⟨m, hm, hb⟩)
  refine ((List.forall₂_and_left _ _).2 ⟨hvm, h⟩).imp ?_
  rintro m m' ⟨hvb, hm⟩ p
  exact hm.buildModule_eq hvb p

theorem ofModules_reorders {ms ms' : List Module} (h : List.Forall₂ Module.Reorders ms ms')
    (hv : ∀ x ∈ encodedValues ms, x.2.2.ValidText) :
    (Plan.ofModules ms).toOption = (Plan.ofModules ms').toOption := by
  have hvb : ∀ b ∈ resourceBlocks ms, ∀ x ∈ b.encodedValues, x.2.2.ValidText :=
    fun b hb x hx => hv x (List.mem_flatMap.2 ⟨b, hb, hx⟩)
  have hplanned := ((List.forall₂_and_left _ _).2 ⟨hvb, resourceBlocks_reorders h⟩).imp
    fun _ _ hb => hb.2.plannedValuesWithin_toOption blockCallRoom hb.1
  rw [Plan.ofModules_gated, Plan.ofModules_gated, toOption_map, toOption_map, build_reorders h hvb,
    toOption_outcome, toOption_outcome, toOption_mapM, toOption_mapM,
    mapM_eq_of_forall₂ _ _ hplanned]

theorem render_reorders {ms ms' : List Module} (h : List.Forall₂ Module.Reorders ms ms')
    (hv : ∀ x ∈ encodedValues ms, x.2.2.ValidText) (indent : Option Indent) :
    (Plan.render ms indent).toOption = (Plan.render ms' indent).toOption := by
  unfold Plan.render
  apply toOption_bind_congr _ _ _ _ _ fun _ => rfl
  rw [toOption_mapError, toOption_mapError, ofModules_reorders h hv]

/-! ## Encoding in any order -/

/-- Reordering the sets in values whose texts are made of code points changes neither whether a
value, the values of a block or the plan of modules can be encoded nor the result. -/
theorem encoding_ignores_set_order :
    (∀ v w : Value, v.Reorders w → v.ValidText → v.toJson.toOption = w.toJson.toOption) ∧
    (∀ (kind : Text) (vals vals' : List (Text × Value)),
      List.Forall₂ (fun e e' => e.1 = e'.1 ∧ e.2.Reorders e'.2) vals vals' →
      (∀ e ∈ vals, e.2.ValidText) →
      (marshalValues kind vals).toOption = (marshalValues kind vals').toOption) ∧
    (∀ (ms ms' : List Module) (indent : Option Indent), List.Forall₂ Module.Reorders ms ms' →
      (∀ x ∈ encodedValues ms, x.2.2.ValidText) →
      (Plan.render ms indent).toOption = (Plan.render ms' indent).toOption) :=
  ⟨fun _ _ h hv => h.toJson_form_eq hv,
    fun kind _ _ h hv => marshalValues_reorders kind h fun e he => hv e (List.mem_filter.1 he).1,
    fun _ _ indent h hv => render_reorders h hv indent⟩

/-- A bucket in a module of its own, with one value under `tags`. -/
def taggedBucket (tags : Value) : Module :=
  ⟨"", "", [⟨"resource", "aws_s3_bucket", "logs", [], [], some [("tags", tags)], false, none, "",
    ""⟩]⟩

/-- A bucket tagged with a set of a number and a text, the set met in its two orders. -/
theorem tagged_bucket_order_free :
    Value.Reorders (.set [.int 1, .str "a"]) (.set [.str "a", .int 1]) ∧
      (Value.set [.int 1, .str "a"]).ValidText ∧
      List.Forall₂ Module.Reorders [taggedBucket (.set [.int 1, .str "a"])]
        [taggedBucket (.set [.str "a", .int 1])] ∧
      (∀ x ∈ encodedValues [taggedBucket (.set [.int 1, .str "a"])], x.2.2.ValidText) ∧
      (Value.set [.int 1, .str "a"]).toJson.toOption =
        (Value.set [.str "a", .int 1]).toJson.toOption ∧
      (marshalValues resourceKind [(("tags" : Text), Value.set [.int 1, .str "a"])]).toOption =
        (marshalValues resourceKind [(("tags" : Text), Value.set [.str "a", .int 1])]).toOption ∧
      (Plan.render [taggedBucket (.set [.int 1, .str "a"])] none).toOption =
        (Plan.render [taggedBucket (.set [.str "a", .int 1])] none).toOption := by
  have hr : Value.Reorders (.set [.int 1, .str "a"]) (.set [.str "a", .int 1]) :=
    .set (.cons (.refl _) (.cons (.refl _) .nil)) (.swap _ _ _)
  have hv : (Value.set [.int 1, .str "a"]).ValidText := by
    refine .set fun x hx => ?_
    simp only [List.mem_cons, List.not_mem_nil, or_false] at hx
    rcases hx with rfl | rfl
    exacts [.int 1, .str (ofString_points_lt "a")]
  have hvals : List.Forall₂ (fun e e' => e.1 = e'.1 ∧ e.2.Reorders e'.2)
      [(("tags" : Text), Value.set [.int 1, .str "a"])]
      [(("tags" : Text), Value.set [.str "a", .int 1])] :=
    .cons ⟨rfl, hr⟩ .nil
  have hm : List.Forall₂ Module.Reorders [taggedBucket (.set [.int 1, .str "a"])]
      [taggedBucket (.set [.str "a", .int 1])] :=
    .cons (.mk (.cons (.mk (.some hvals) .nil) .nil)) .nil
  have henc : ∀ x ∈ encodedValues [taggedBucket (.set [.int 1, .str "a"])], x.2.2.ValidText := by
    have hsplit : encodedValues [taggedBucket (.set [.int 1, .str "a"])] =
        [(("tags" : Text), ("resource" : Text), Value.set [.int 1, .str "a"])] := by
      have hres : (taggedBucket (.set [.int 1, .str "a"])).blocksOf resourceKind =
          (taggedBucket (.set [.int 1, .str "a"])).blocks := rfl
      rw [encodedValues, resourceBlocks, List.flatMap_singleton, hres, taggedBucket,
        List.flatMap_singleton, Block.encodedValues_eq]
      rfl
    rw [hsplit]
    simpa using hv
  obtain ⟨hvalue, hmarshal, hplan⟩ := encoding_ignores_set_order
  exact ⟨hr, hv, hm, henc, hvalue _ _ hr hv,
    hmarshal _ _ _ hvals (by simpa using hv), hplan _ _ none hm henc⟩

end BlockPlan
