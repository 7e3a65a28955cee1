import BlockPlan.Proofs.Entries
import BlockPlan.Proofs.PlanOrder

/-!
# What the expressions of a block keep

`Block.expressions` puts the attributes that refer to something under their names, then each
kind of child under its name, the children's expressions grouped by kind. Both go into one map,
so a later attribute of one name takes the place of an earlier one, and a kind of child takes the
place of an attribute of its name. Read as a whole (`expressions_eq_putAll`), the map is the
entries put one by one, and so it keeps the last entry of each name (`putAll_perm_lastBy`).

What this gives, for every block tree:

* no entry is empty at any depth (`Block.expressions_full`), and the map is empty exactly when
  no attribute of the tree refers to anything (`Block.expressions_eq_nil_iff`);
* the reference lists standing in the map, at any depth, are those of the kept attributes of
  the tree, each whole and once (`Block.expressions_keep_references`): an attribute is kept when
  it refers to something, no later attribute of its block with its name does, and no child of
  its block of that kind has references in its tree;
* so where names do not meet, no reference is lost or repeated
  (`Block.expressions_references_of_apart`).
-/

namespace BlockPlan

@[elab_as_elim]
theorem Block.induction {motive : Block → Prop} (step : ∀ b, (∀ c ∈ b.children, motive c) → motive b)
    (b : Block) : motive b :=
  step b fun c _ => Block.induction step c
termination_by sizeOf b
decreasing_by
  have := List.sizeOf_lt_of_mem ‹c ∈ b.children›
  have := Block.sizeOf_children_lt b
  omega

/-- The blocks of a tree: the block, then the trees of its children in order. -/
def Block.tree (b : Block) : List Block :=
  b :: b.children.attach.flatMap fun ⟨c, _⟩ => c.tree
termination_by sizeOf b
decreasing_by
  have := List.sizeOf_lt_of_mem ‹c ∈ b.children›
  have := Block.sizeOf_children_lt b
  omega

theorem Block.tree_eq (b : Block) : b.tree = b :: b.children.flatMap Block.tree := by
  rw [Block.tree, List.flatMap_subtype (fun _ _ => rfl), List.unattach_attach]

/-- Whether some attribute of the tree refers to something. -/
def Block.refers (b : Block) : Bool :=
  b.tree.any fun d => d.attributes.any fun a => !a.references.isEmpty

/-- The attributes of a block whose references its expressions keep: those that refer to
something, unless a later one of the same name does too, or a child of that kind has references
in its tree. -/
def Block.keptAttributes (b : Block) : List Attribute :=
  (lastBy Attribute.name (b.attributes.filter fun a => !a.references.isEmpty)).filter fun a =>
    !b.children.any fun c => c.kind == a.name && c.refers

mutual

/-- The reference lists of an expression, in the order they stand. -/
def Expression.lists : Expression → List (List Text)
  | .references rs => [rs]
  | .nested ms => Expression.mapsLists ms

/-- The reference lists of several maps of expressions. -/
def Expression.mapsLists : List (List (Text × Expression)) → List (List Text)
  | [] => []
  | m :: rest => Expression.fieldsLists m ++ Expression.mapsLists rest

/-- The reference lists of a map of expressions. -/
def Expression.fieldsLists : List (Text × Expression) → List (List Text)
  | [] => []
  | (_, e) :: rest => e.lists ++ Expression.fieldsLists rest

end

/-- No entry of an expression is empty: a reference list has a reference, and the children of a
kind are at least one, each with a map that has an entry, none empty in turn. -/
inductive Expression.Full : Expression → Prop
  | references {rs : List Text} : rs ≠ [] → Expression.Full (.references rs)
  | nested {ms : List (List (Text × Expression))} : ms ≠ [] → (∀ m ∈ ms, m ≠ []) →
      (∀ m ∈ ms, ∀ e ∈ m, Expression.Full e.2) → Expression.Full (.nested ms)

/-! ## The map as entries put one by one -/

@[simp] theorem Expression.lists_references (rs : List Text) :
    (Expression.references rs).lists = [rs] := by
  rw [Expression.lists]

theorem Expression.fieldsLists_eq (m : List (Text × Expression)) :
    Expression.fieldsLists m = m.flatMap fun e => e.2.lists := by
  induction m with
  | nil => rw [Expression.fieldsLists, List.flatMap_nil]
  | cons e m ih =>
    obtain ⟨k, x⟩ := e
    rw [Expression.fieldsLists, ih, List.flatMap_cons]

theorem Expression.lists_nested (ms : List (List (Text × Expression))) :
    (Expression.nested ms).lists = ms.flatMap Expression.fieldsLists := by
  rw [Expression.lists]
  induction ms with
  | nil => rw [Expression.mapsLists, List.flatMap_nil]
  | cons m ms ih => rw [Expression.mapsLists, ih, List.flatMap_cons]

/-- The attributes of a block that refer to something, each under its name. -/
def Block.referenceEntries (b : Block) : List (Text × Expression) :=
  (b.attributes.filter fun a => !a.references.isEmpty).map fun a => (a.name, .references a.references)

/-- The children of a block that have expressions, each with its kind. -/
def Block.childItems (b : Block) : List (Text × List (Text × Expression)) :=
  (b.children.filter fun c => !c.expressions.isEmpty).map fun c => (c.kind, c.expressions)

/-- The expressions of a block are its reference entries, then its child groups, put one by one
into no entries. -/
theorem Block.expressions_eq_putAll (b : Block) :
    b.expressions =
      putAll (b.referenceEntries ++ (groupAll b.childItems).map fun g => (g.1, .nested g.2)) := by
  rw [Block.expressions_eq, putAll, List.foldl_append, List.foldl_map, Block.referenceEntries,
    List.foldl_map, List.foldl_filter, groupAll, Block.childItems, List.foldl_map, List.foldl_filter]
  -- the code tests for no references (no expressions) where the filter keeps the others
  have hattr : ∀ (m : List (Text × Expression)) (a : Attribute),
      (if a.references.isEmpty then m else putEntry m a.name (.references a.references)) =
        if (!a.references.isEmpty) = true then putEntry m a.name (.references a.references)
        else m := by
    intro m a
    cases a.references.isEmpty <;> rfl
  have hkid : ∀ (m : List (Text × List (List (Text × Expression)))) (c : Block),
      (let e := c.expressions; if e.isEmpty then m else appendUnder m c.kind e) =
        if (!c.expressions.isEmpty) = true then appendUnder m c.kind c.expressions else m := by
    intro m c
    dsimp only
    cases c.expressions.isEmpty <;> rfl
  simp only [hattr, hkid]

/-! ## No empty entry -/

theorem Block.expressions_eq_nil_iff_entries (b : Block) :
    b.expressions = [] ↔ b.referenceEntries = [] ∧ b.childItems = [] := by
  rw [Block.expressions_eq_putAll, putAll_eq_nil_iff, List.append_eq_nil_iff, List.map_eq_nil_iff,
    groupAll_eq_nil_iff]

/-- **No expressions, no references.** The expressions of a block are empty exactly when no
attribute of its tree refers to anything. -/
theorem Block.expressions_eq_nil_iff (b : Block) :
    b.expressions = [] ↔ ∀ d ∈ b.tree, ∀ a ∈ d.attributes, a.references = [] := by
  induction b using Block.induction with
  | step b ih =>
    rw [Block.expressions_eq_nil_iff_entries, Block.tree_eq]
    have hown : b.referenceEntries = [] ↔ ∀ a ∈ b.attributes, a.references = [] := by
      simp [Block.referenceEntries, List.filter_eq_nil_iff]
    have hkids : b.childItems = [] ↔ ∀ c ∈ b.children, ∀ d ∈ c.tree, ∀ a ∈ d.attributes,
        a.references = [] := by
      simp only [Block.childItems, List.map_eq_nil_iff, List.filter_eq_nil_iff, Bool.not_eq_true',
        List.isEmpty_eq_false_iff, ne_eq, Decidable.not_not]
      exact forall₂_congr fun c hc => ih c hc
    rw [hown, hkids]
    simp only [List.mem_cons, List.mem_flatMap, forall_eq_or_imp]
    constructor
    · rintro ⟨hb, hc⟩
      exact ⟨hb, fun d ⟨c, hc', hd⟩ => hc c hc' d hd⟩
    · rintro ⟨hb, hc⟩
      exact ⟨hb, fun c hc' d hd => hc d ⟨c, hc', hd⟩⟩

theorem Block.expressions_isEmpty (b : Block) : b.expressions.isEmpty = !b.refers := by
  rw [Bool.eq_iff_iff, List.isEmpty_iff, Block.expressions_eq_nil_iff, Block.refers,
    Bool.not_eq_true', List.any_eq_false]
  simp

/-- **No empty entry.** No entry of the expressions of a block is empty, at any depth. -/
theorem Block.expressions_full (b : Block) : ∀ e ∈ b.expressions, e.2.Full := by
  induction b using Block.induction with
  | step b ih =>
    rw [Block.expressions_eq_putAll]
    intro e he
    rcases List.mem_append.1 (mem_of_mem_putAll he) with he | he
    · -- an attribute that refers to something
      obtain ⟨a, ha, rfl⟩ := List.mem_map.1 he
      have hrefs : a.references ≠ [] := by simpa using (List.mem_filter.1 ha).2
      exact .references hrefs
    · -- the group of one kind of child, each map the expressions of a child that has some
      obtain ⟨g, hg, rfl⟩ := List.mem_map.1 he
      have hchild : ∀ m ∈ g.2, ∃ c ∈ b.children, c.expressions ≠ [] ∧ m = c.expressions := by
        intro m hm
        have hitem : m ∈ b.childItems.map Prod.snd :=
          (groupAll_flatMap_perm _).subset (List.mem_flatMap.2 ⟨g, hg, hm⟩)
        rw [Block.childItems, List.map_map] at hitem
        obtain ⟨c, hc, rfl⟩ := List.mem_map.1 hitem
        have hc' := List.mem_filter.1 hc
        exact ⟨c, hc'.1, by simpa using hc'.2, rfl⟩
      refine .nested (groupAll_groups_ne_nil _ g hg) (fun m hm => ?_) (fun m hm => ?_)
      · obtain ⟨c, -, hne, rfl⟩ := hchild m hm
        exact hne
      · obtain ⟨c, hc, -, rfl⟩ := hchild m hm
        exact ih c hc

/-- **No empty entry.** The expressions of a block hold no empty entry at any depth, and they are
empty exactly when no attribute of the block's tree refers to anything. -/
theorem Block.expressions_no_empty_entry (b : Block) :
    (∀ e ∈ b.expressions, e.2.Full) ∧
      (b.expressions = [] ↔ ∀ d ∈ b.tree, ∀ a ∈ d.attributes, a.references = []) :=
  ⟨Block.expressions_full b, Block.expressions_eq_nil_iff b⟩

/-! ## The reference lists that are kept -/

/-- The kinds under which children stand in the expressions: those of the children whose trees
refer to something. -/
theorem Block.mem_childKinds (b : Block) (k : Text) :
    k ∈ (groupAll b.childItems).map Prod.fst ↔ b.children.any fun c => c.kind == k && c.refers := by
  rw [keys_groupAll, List.mem_eraseDups, Block.childItems, List.map_map, List.any_eq_true]
  simp only [List.mem_map, List.mem_filter, Function.comp, Block.expressions_isEmpty,
    Bool.not_not, Bool.and_eq_true, beq_iff_eq]
  constructor
  · rintro ⟨c, ⟨hc, hr⟩, rfl⟩
    exact ⟨c, hc, rfl, hr⟩
  · rintro ⟨c, hc, rfl, hr⟩
    exact ⟨c, ⟨hc, hr⟩, rfl⟩

/-- The reference lists of the attributes that no child group takes the place of are those of
the kept attributes. -/
theorem Block.lists_kept_entries (b : Block) :
    ((lastBy Prod.fst b.referenceEntries).filter fun y =>
        !((groupAll b.childItems).map fun g => (g.1, Expression.nested g.2)).any
          fun z => z.1 == y.1).flatMap (fun e => e.2.lists) =
      b.keptAttributes.map Attribute.references := by
  rw [Block.referenceEntries, lastBy_map, List.filter_map, List.flatMap_map, Block.keptAttributes]
  simp only [Expression.lists_references, ← List.map_eq_flatMap]
  congr 1
  apply List.filter_congr
  intro a _
  -- an attribute is left out exactly when a child group stands under its name
  have hkinds := Block.mem_childKinds b a.name
  rw [← any_key_eq_iff] at hkinds
  simp only [Function.comp, List.any_map]
  congr 1
  exact Bool.eq_iff_iff.2 hkinds

theorem flatMap_filter_of_nil {γ δ : Type} {p : γ → Bool} {f : γ → List δ} (l : List γ)
    (h : ∀ x ∈ l, p x = false → f x = []) : (l.filter p).flatMap f = l.flatMap f := by
  induction l with
  | nil => rfl
  | cons x l ih =>
    have ih' := ih fun y hy => h y (List.mem_cons_of_mem x hy)
    rw [List.filter_cons]
    split
    · rw [List.flatMap_cons, List.flatMap_cons, ih']
    · rename_i hx
      rw [List.flatMap_cons, h x List.mem_cons_self (by simpa using hx), List.nil_append, ih']

/-- The reference lists of the child groups are those of the children's expressions. -/
theorem Block.lists_child_groups (b : Block) :
    (((groupAll b.childItems).map fun g => (g.1, Expression.nested g.2)).flatMap
        fun e => e.2.lists).Perm
      (b.children.flatMap fun c => Expression.fieldsLists c.expressions) := by
  rw [List.flatMap_map]
  simp only [Expression.lists_nested]
  have hgroups := (groupAll_flatMap_perm b.childItems).flatMap_right Expression.fieldsLists
  rw [List.flatMap_assoc] at hgroups
  refine hgroups.trans ?_
  rw [Block.childItems, List.map_map, List.flatMap_map]
  apply List.Perm.of_eq
  apply flatMap_filter_of_nil
  intro c _ hc
  have hnil : c.expressions = [] := by simpa using hc
  show Expression.fieldsLists c.expressions = []
  rw [hnil, Expression.fieldsLists]

/-- The reference lists standing in the expressions of a block are those of the kept attributes
of its tree, each whole and once. -/
theorem Block.lists_expressions_perm (b : Block) :
    (Expression.fieldsLists b.expressions).Perm
      ((b.tree.flatMap Block.keptAttributes).map Attribute.references) := by
  induction b using Block.induction with
  | step b ih =>
    rw [Block.expressions_eq_putAll, Expression.fieldsLists_eq, Block.tree_eq, List.flatMap_cons,
      List.map_append]
    refine ((putAll_perm_lastBy _).flatMap_right _).trans ?_
    have hgroups : lastBy Prod.fst ((groupAll b.childItems).map fun g => (g.1, Expression.nested g.2)) =
        (groupAll b.childItems).map fun g => (g.1, Expression.nested g.2) := by
      apply lastBy_of_nodup
      rw [List.map_map]
      exact nodup_keys_groupAll b.childItems
    rw [lastBy_append, hgroups, List.flatMap_append, Block.lists_kept_entries]
    refine (Block.lists_child_groups b).append_left _ |>.trans ?_
    refine List.Perm.append_left _ ?_
    rw [List.flatMap_assoc, List.map_flatMap]
    exact List.Perm.flatMap_left _ fun c hc => ih c hc

theorem Block.references_expressions_perm (b : Block) :
    (Expression.fieldsLists b.expressions).flatten.Perm
      ((b.tree.flatMap Block.keptAttributes).flatMap Attribute.references) := by
  simpa only [List.flatMap_def] using (Block.lists_expressions_perm b).flatten

/-- **What the expressions keep.** The reference lists standing anywhere in the expressions of a
block are those of the kept attributes of its tree, each whole and once; so the references in
them are the references of the kept attributes, none lost or repeated. -/
theorem Block.expressions_keep_references (b : Block) :
    (Expression.fieldsLists b.expressions).Perm ((b.tree.flatMap Block.keptAttributes).map
        Attribute.references) ∧
      (Expression.fieldsLists b.expressions).flatten.Perm
        ((b.tree.flatMap Block.keptAttributes).flatMap Attribute.references) :=
  ⟨Block.lists_expressions_perm b, Block.references_expressions_perm b⟩

/-- A block with two attributes of one name, each referring to a subnet. -/
def twoSubnetBlock : Block :=
  ⟨"resource", "aws_instance", "web",
    [⟨"subnet_id", .str "a", ["aws_subnet.a.id"]⟩, ⟨"subnet_id", .str "b", ["aws_subnet.b.id"]⟩],
    [], some [("subnet_id", .str "b")], false, none, "", ""⟩

/-- The second attribute of a name takes the place of the first, whose reference is lost. -/
theorem repeated_name_loses_reference :
    ¬(Expression.fieldsLists twoSubnetBlock.expressions).flatten.Perm
      ((twoSubnetBlock.tree.flatMap Block.attributes).flatMap Attribute.references) := by
  rw [Block.expressions_eq_putAll, Block.tree_eq]
  decide

/-! ## Where names do not meet -/

/-- The names of a block are apart when no two of its attributes that refer to something share a
name, and no child whose tree refers to something is of the kind of such an attribute. -/
def Block.NamesApart (b : Block) : Prop :=
  ((b.attributes.filter fun a => !a.references.isEmpty).map Attribute.name).Nodup ∧
    ∀ a ∈ b.attributes, a.references ≠ [] → ∀ c ∈ b.children, c.kind = a.name → c.refers = false

theorem Block.keptAttributes_of_apart (b : Block) (h : b.NamesApart) :
    b.keptAttributes = b.attributes.filter fun a => !a.references.isEmpty := by
  rw [Block.keptAttributes, lastBy_of_nodup _ _ h.1]
  apply List.filter_eq_self.2
  intro a ha
  have ha' := List.mem_filter.1 ha
  have hrefs : a.references ≠ [] := by simpa using ha'.2
  simp only [Bool.not_eq_true', List.any_eq_false, Bool.and_eq_true, beq_iff_eq, not_and]
  intro c hc hk
  simp [h.2 a ha'.1 hrefs c hc hk]

/-- **Nothing lost where names are apart.** When the names of every block of a tree are apart,
the references in its expressions are those of all its attributes, none lost or repeated. -/
theorem Block.expressions_references_of_apart (b : Block) (h : ∀ d ∈ b.tree, d.NamesApart) :
    (Expression.fieldsLists b.expressions).flatten.Perm
      ((b.tree.flatMap Block.attributes).flatMap Attribute.references) := by
  refine (Block.references_expressions_perm b).trans (List.Perm.of_eq ?_)
  rw [List.flatMap_assoc, List.flatMap_assoc]
  apply List.flatMap_congr
  intro d hd
  rw [Block.keptAttributes_of_apart d (h d hd)]
  exact flatMap_filter_of_nil _ fun a _ ha => by simpa using ha

end BlockPlan
