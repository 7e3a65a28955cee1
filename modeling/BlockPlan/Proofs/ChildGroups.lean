import BlockPlan.Proofs.PlanOrder

/-!
# Child blocks grouped under their kinds

`Block.addChildren b m` adds the planned values of `b`'s children to the map `m`, one child at a
time (`addChild`). For keys that name at most one kind, and lists that can be read back
(`LawfulAttributeKey`, `LawfulPlannedSlot`, as the keys and values of plans and of maps given
from outside are), a run over children gives a map that is `Grouped` (`grouped_foldl`):

* its keys are those of `m`, in place, followed by the kinds that no key of `m` names, in order
  of first occurrence;
* an entry whose key names no child's kind keeps its value and position;
* under each kind stand the items of the list that stood there before, if one did, followed by
  the planned values of the children of that kind, in declaration order;
* under any other kind it holds what `m` held.

`addChildren_groups` reads this off a block: adding its children succeeds exactly when every
child has planned values, and the result is grouped from them. The calls that add them reach a
room of levels, and within it they add them the same way (`Block.addChildrenWithin_of_nestsWithin`). A child's own planned values are
its values in JSON form, or an empty map when it has none but has children, with its children
added the same way (`Block.plannedValues_eq_addChildren`).

Since `count` is only left out of a resource's own values, a resource has `count` among the
top-level keys of its planned values exactly when one of its children is of kind `count`
(`resource_count_key_iff`).
-/

namespace BlockPlan

/-! ## What grouping needs of keys and slots -/

/-- Keys that name at most one kind, the key made for a kind naming it. -/
class LawfulAttributeKey (κ : Type) [AttributeKey κ] : Prop where
  isName_ofName (n : Text) : AttributeKey.isName (AttributeKey.ofName (κ := κ) n) n = true
  eq_of_isName (k : κ) (a b : Text) :
    AttributeKey.isName k a = true → AttributeKey.isName k b = true → a = b

/-- Slots whose lists read back as the items they were made of. -/
class LawfulPlannedSlot (β : Type) [PlannedSlot β] : Prop where
  items_ofItems (xs : List β) : PlannedSlot.items? (PlannedSlot.ofItems xs) = some xs

instance : LawfulAttributeKey Text where
  isName_ofName n := by simp [AttributeKey.isName, AttributeKey.ofName]
  eq_of_isName k a b ha hb := by
    simp only [AttributeKey.isName, beq_iff_eq] at ha hb
    rw [← ha, ← hb]

theorem Value.eqv_str_iff (k : Value) (n : Text) : k.eqv (.str n) = true ↔ k = .str n := by
  cases k <;> simp [Value.eqv]

instance : LawfulAttributeKey Value where
  isName_ofName n := (Value.eqv_str_iff _ n).2 rfl
  eq_of_isName k a b ha hb := by
    have ha' := (Value.eqv_str_iff k a).1 ha
    have hb' := (Value.eqv_str_iff k b).1 hb
    rw [ha'] at hb'
    exact Value.str.inj hb'

instance : LawfulPlannedSlot Json := ⟨fun _ => rfl⟩

instance : LawfulPlannedSlot Value := ⟨fun _ => rfl⟩

variable {κ β : Type}

/-! ## Reading a map by kind -/

section Keys

variable [AttributeKey κ]

/-- The value under the first key that names a kind. -/
def valueUnder (m : List (κ × β)) (k : Text) : Option β :=
  (m.find? fun e => AttributeKey.isName e.1 k).map Prod.snd

/-- The kinds of children that no key of the map names, in order of first occurrence. -/
def newKinds (m : List (κ × β)) (cs : List (Text × β)) : List Text :=
  ((cs.map Prod.fst).filter fun k => !m.any fun e => AttributeKey.isName e.1 k).eraseDups

theorem find?_isName_eq_none_iff (m : List (κ × β)) (k : Text) :
    m.find? (fun e => AttributeKey.isName e.1 k) = none ↔
      (m.any fun e => AttributeKey.isName e.1 k) = false := by
  simp [List.find?_eq_none]

theorem find?_map_update (m : List (κ × β)) (k k' : Text) (v : β) :
    (m.map fun x => if AttributeKey.isName x.1 k then (x.1, v) else x).find?
        (fun e => AttributeKey.isName e.1 k') =
      (m.find? fun e => AttributeKey.isName e.1 k').map
        fun x => if AttributeKey.isName x.1 k then (x.1, v) else x := by
  rw [List.find?_map]
  congr 2
  funext x
  simp only [Function.comp_apply]
  split <;> rfl

theorem mem_newKinds (m : List (κ × β)) (cs : List (Text × β)) (k : Text) :
    k ∈ newKinds m cs ↔
      (∃ c ∈ cs, c.1 = k) ∧ (m.any fun e => AttributeKey.isName e.1 k) = false := by
  simp only [newKinds, List.mem_eraseDups, List.mem_filter, List.mem_map, Bool.not_eq_eq_eq_not,
    Bool.not_true]

theorem newKinds_append_singleton (m : List (κ × β)) (cs : List (Text × β)) (c : Text × β) :
    newKinds m (cs ++ [c]) =
      newKinds m cs ++
        (if (m.any fun e => AttributeKey.isName e.1 c.1) || (cs.any fun c' => c'.1 == c.1) then []
          else [c.1]) := by
  unfold newKinds
  rw [List.map_append, List.filter_append, List.eraseDups_append]
  congr 1
  by_cases hm : (m.any fun e => AttributeKey.isName e.1 c.1) = true
  · simp [hm]
  · have hm' : (m.any fun e => AttributeKey.isName e.1 c.1) = false := Bool.eq_false_iff.2 hm
    by_cases hcs : (cs.any fun c' => c'.1 == c.1) = true
    · have hmem : c.1 ∈ (cs.map Prod.fst).filter fun k =>
          !m.any fun e => AttributeKey.isName e.1 k := by
        simp only [List.any_eq_true, beq_iff_eq] at hcs
        obtain ⟨c', hc', heq⟩ := hcs
        simp only [List.mem_filter, List.mem_map, hm', Bool.not_false, and_true]
        exact ⟨c', hc', heq⟩
      simp [hm', hcs, List.removeAll, hmem]
    · have hcs' : (cs.any fun c' => c'.1 == c.1) = false := Bool.eq_false_iff.2 hcs
      have hnot : c.1 ∉ (cs.map Prod.fst).filter fun k =>
          !m.any fun e => AttributeKey.isName e.1 k := by
        simp only [List.any_eq_false, beq_iff_eq] at hcs'
        simp only [List.mem_filter, List.mem_map, not_and]
        rintro ⟨c', hc', heq⟩
        exact absurd heq (hcs' c' hc')
      simp [hm', hcs', List.removeAll, hnot, List.eraseDups_cons]

theorem any_isName_of_keys [LawfulAttributeKey κ] {m m' : List (κ × β)} {ks : List Text}
    (hkeys : m'.map Prod.fst = m.map Prod.fst ++ ks.map AttributeKey.ofName) (k : Text) :
    (m'.any fun e => AttributeKey.isName e.1 k) =
      ((m.any fun e => AttributeKey.isName e.1 k) || decide (k ∈ ks)) := by
  have hany := congrArg (fun l => l.any fun key => AttributeKey.isName key k) hkeys
  simp only [List.any_map, List.any_append, Function.comp_def] at hany
  rw [hany]
  congr 1
  have hname : ∀ k',
      AttributeKey.isName (AttributeKey.ofName (κ := κ) k') k = decide (k' = k) := by
    intro k'
    by_cases h : k' = k
    · subst h
      simp [LawfulAttributeKey.isName_ofName]
    · simp only [h, decide_false]
      exact Bool.eq_false_iff.2 fun hk => h
        (LawfulAttributeKey.eq_of_isName _ k' k (LawfulAttributeKey.isName_ofName k') hk)
  simp only [hname]
  rw [Bool.eq_iff_iff, decide_eq_true_eq, List.any_eq_true]
  constructor
  · rintro ⟨x, hx, hxk⟩
    rw [decide_eq_true_eq] at hxk
    exact hxk ▸ hx
  · intro hk
    exact ⟨k, hk, decide_eq_true rfl⟩

end Keys

/-- The values of the children of one kind, in order. -/
def ofKind (cs : List (Text × β)) (k : Text) : List β :=
  (cs.filter fun c => c.1 == k).map Prod.snd

theorem ofKind_append_singleton (cs : List (Text × β)) (c : Text × β) (k : Text) :
    ofKind (cs ++ [c]) k = ofKind cs k ++ (if c.1 = k then [c.2] else []) := by
  unfold ofKind
  by_cases h : c.1 = k <;> simp [List.filter_append, h]

theorem ofKind_eq_nil (cs : List (Text × β)) (k : Text) (h : (cs.any fun c => c.1 == k) = false) :
    ofKind cs k = [] := by
  simp only [List.any_eq_false, beq_iff_eq] at h
  simp only [ofKind, List.map_eq_nil_iff, List.filter_eq_nil_iff, beq_iff_eq]
  exact h

section Slots

variable [AttributeKey κ] [PlannedSlot β]

/-- The items of the list standing under a kind; none when no list stands there. -/
def priorItems (m : List (κ × β)) (k : Text) : List β :=
  ((valueUnder m k).bind PlannedSlot.items?).getD []

/-- The map `m'` holds the children `cs` grouped by kind into `m`. -/
structure Grouped (m : List (κ × β)) (cs : List (Text × β)) (m' : List (κ × β)) : Prop where
  /-- The keys of `m` stay in place; the kinds no key named follow, in order of first
  occurrence. -/
  keys : m'.map Prod.fst = m.map Prod.fst ++ (newKinds m cs).map AttributeKey.ofName
  /-- An entry whose key names no kind of a child keeps its value and position. -/
  kept : ∀ (i : Nat) (e : κ × β), m[i]? = some e →
    (cs.any fun c => AttributeKey.isName e.1 c.1) = false →
    m'[i]? = some e
  /-- Under each kind: the items of the list that stood there, then the children of the kind. -/
  grouped : ∀ c ∈ cs,
    valueUnder m' c.1 = some (PlannedSlot.ofItems (priorItems m c.1 ++ ofKind cs c.1))
  /-- Under any other kind the map holds what it held. -/
  untouched : ∀ k, (cs.any fun c => c.1 == k) = false → valueUnder m' k = valueUnder m k

/-! ## One child -/

/-- Where a key names the kind, every such entry gets the items standing under the first one and
the child. -/
theorem addChild_of_find?_some (m : List (κ × β)) (k : Text) (p : β) (e : κ × β)
    (h : m.find? (fun e => AttributeKey.isName e.1 k) = some e) :
    addChild m k p = m.map fun x => if AttributeKey.isName x.1 k then
      (x.1, PlannedSlot.ofItems ((PlannedSlot.items? e.2).getD [] ++ [p])) else x := by
  unfold addChild
  rw [h]

theorem addChild_of_find?_none (m : List (κ × β)) (k : Text) (p : β)
    (h : m.find? (fun e => AttributeKey.isName e.1 k) = none) :
    addChild m k p = m ++ [(AttributeKey.ofName k, PlannedSlot.ofItems [p])] := by
  unfold addChild
  rw [h]

theorem addChild_keys (m : List (κ × β)) (k : Text) (p : β) :
    (addChild m k p).map Prod.fst =
      m.map Prod.fst ++ (if m.any (fun e => AttributeKey.isName e.1 k) then [] else
        [AttributeKey.ofName k]) := by
  cases hf : m.find? (fun e => AttributeKey.isName e.1 k) with
  | some e =>
    have hany : (m.any fun e => AttributeKey.isName e.1 k) = true := by
      rw [← Bool.not_eq_false, ← find?_isName_eq_none_iff, hf]
      simp
    rw [addChild_of_find?_some m k p e hf, hany, List.map_map]
    simp only [List.append_nil, if_true]
    congr 1
    funext x
    simp only [Function.comp_apply]
    split <;> rfl
  | none =>
    rw [addChild_of_find?_none m k p hf, (find?_isName_eq_none_iff m k).1 hf]
    simp

theorem addChild_get?_of_not_isName (m : List (κ × β)) (k : Text) (p : β) (i : Nat)
    (e : κ × β) (hi : m[i]? = some e)
    (hk : AttributeKey.isName e.1 k = false) : (addChild m k p)[i]? = some e := by
  cases hf : m.find? (fun e => AttributeKey.isName e.1 k) with
  | some e' =>
    rw [addChild_of_find?_some m k p e' hf]
    simp [hi, hk]
  | none =>
    rw [addChild_of_find?_none m k p hf,
      List.getElem?_append_left (List.getElem?_eq_some_iff.1 hi).1, hi]

theorem valueUnder_addChild_self [LawfulAttributeKey κ] (m : List (κ × β)) (k : Text) (p : β) :
    valueUnder (addChild m k p) k = some (PlannedSlot.ofItems (priorItems m k ++ [p])) := by
  unfold priorItems valueUnder
  cases hf : m.find? (fun e => AttributeKey.isName e.1 k) with
  | some e =>
    have he : AttributeKey.isName e.1 k = true := by simpa using List.find?_some hf
    rw [addChild_of_find?_some m k p e hf, find?_map_update, hf]
    simp [he]
  | none =>
    rw [addChild_of_find?_none m k p hf]
    simp [List.find?_append, hf, LawfulAttributeKey.isName_ofName]

/-- Any other kind holds what it held. -/
theorem valueUnder_addChild_ne [LawfulAttributeKey κ] (m : List (κ × β)) (k : Text) (p : β)
    (k' : Text) (hne : k' ≠ k) :
    valueUnder (addChild m k p) k' = valueUnder m k' := by
  -- a key naming `k'` names no other kind, and the key made for `k` names only `k`
  have hother : ∀ e : κ × β, AttributeKey.isName e.1 k' = true →
      AttributeKey.isName e.1 k = false := fun e h₁ =>
    Bool.eq_false_iff.2 fun h₂ => hne (LawfulAttributeKey.eq_of_isName e.1 k' k h₁ h₂)
  unfold valueUnder
  cases hf : m.find? (fun e => AttributeKey.isName e.1 k) with
  | some e =>
    rw [addChild_of_find?_some m k p e hf, find?_map_update]
    cases hf' : m.find? (fun e => AttributeKey.isName e.1 k') with
    | none => rfl
    | some e' =>
      have he' : AttributeKey.isName e'.1 k' = true := by simpa using List.find?_some hf'
      simp [hother e' he']
  | none =>
    have hnew : AttributeKey.isName (AttributeKey.ofName (κ := κ) k) k' = false :=
      Bool.eq_false_iff.2 fun h => hne
        (LawfulAttributeKey.eq_of_isName _ k' k h (LawfulAttributeKey.isName_ofName k))
    rw [addChild_of_find?_none m k p hf]
    cases hf' : m.find? (fun e => AttributeKey.isName e.1 k') <;>
      simp [List.find?_append, hf', hnew]

/-! ## A run over children -/

theorem grouped_nil (m : List (κ × β)) : Grouped m [] m where
  keys := by simp [newKinds]
  kept _ _ hi _ := hi
  grouped _ hc := by cases hc
  untouched _ _ := rfl

/-- Adding one more child keeps a map grouped. -/
theorem Grouped.addChild [LawfulAttributeKey κ] [LawfulPlannedSlot β] {m m' : List (κ × β)}
    {cs : List (Text × β)} (h : Grouped m cs m')
    (c : Text × β) : Grouped m (cs ++ [c]) (addChild m' c.1 c.2) where
  keys := by
    rw [addChild_keys, h.keys, any_isName_of_keys h.keys, newKinds_append_singleton]
    by_cases hm : (m.any fun e => AttributeKey.isName e.1 c.1) = true
    · simp [hm]
    · have hm' := Bool.eq_false_iff.2 hm
      have hmem : c.1 ∈ newKinds m cs ↔ (cs.any fun c' => c'.1 == c.1) = true := by
        rw [mem_newKinds]
        simp [hm', List.any_eq_true]
      by_cases hcs : (cs.any fun c' => c'.1 == c.1) = true
      · simp [hm', hcs, hmem.2 hcs]
      · simp [hm', hcs, (not_congr hmem).2 hcs]
  kept i e hi hnone := by
    simp only [List.any_append, List.any_cons, List.any_nil, Bool.or_false, Bool.or_eq_false_iff]
      at hnone
    exact addChild_get?_of_not_isName m' c.1 c.2 i e (h.kept i e hi hnone.1) hnone.2
  grouped c' hc' := by
    by_cases hk : c'.1 = c.1
    · rw [hk, valueUnder_addChild_self, ofKind_append_singleton, if_pos rfl]
      by_cases hcs : (cs.any fun c'' => c''.1 == c.1) = true
      · obtain ⟨c'', hc'', heq⟩ := List.any_eq_true.1 hcs
        have heq' : c''.1 = c.1 := beq_iff_eq.1 heq
        have hprior := h.grouped c'' hc''
        rw [heq'] at hprior
        simp [priorItems, hprior, LawfulPlannedSlot.items_ofItems]
      · have hcs' := Bool.eq_false_iff.2 hcs
        simp [priorItems, h.untouched c.1 hcs', ofKind_eq_nil cs c.1 hcs']
    · have hc'' : c' ∈ cs := by
        rcases List.mem_append.1 hc' with hc' | hc'
        · exact hc'
        · exact absurd (List.mem_singleton.1 hc' ▸ rfl) hk
      rw [valueUnder_addChild_ne m' c.1 c.2 c'.1 hk, h.grouped c' hc'', ofKind_append_singleton,
        if_neg (Ne.symm hk), List.append_nil]
  untouched k hk := by
    simp only [List.any_append, List.any_cons, List.any_nil, Bool.or_false, Bool.or_eq_false_iff,
      beq_eq_false_iff_ne] at hk
    rw [valueUnder_addChild_ne m' c.1 c.2 k (Ne.symm hk.2), h.untouched k hk.1]

theorem grouped_foldl [LawfulAttributeKey κ] [LawfulPlannedSlot β] (m : List (κ × β))
    (cs : List (Text × β)) :
    Grouped m cs (cs.foldl (fun m c => addChild m c.1 c.2) m) := by
  induction cs using List.reverseRecOn with
  | nil => exact grouped_nil m
  | append_singleton cs c ih =>
    rw [List.foldl_append, List.foldl_cons, List.foldl_nil]
    exact ih.addChild c

end Slots

/-! ## The children of a block -/

theorem exists_forall₂_iff {α γ : Type} (R : α → γ → Prop) (l : List α) :
    (∃ l', List.Forall₂ R l l') ↔ ∀ a ∈ l, ∃ b, R a b := by
  induction l with
  | nil => exact ⟨fun _ => by simp, fun _ => ⟨[], .nil⟩⟩
  | cons a l ih =>
    constructor
    · rintro ⟨l', hl'⟩ x hx
      cases hl' with
      | cons hb hrest =>
        rcases List.mem_cons.1 hx with rfl | hx
        · exact ⟨_, hb⟩
        · exact ih.1 ⟨_, hrest⟩ x hx
    · intro h
      obtain ⟨b, hb⟩ := h a List.mem_cons_self
      obtain ⟨l', hl'⟩ := ih.2 fun x hx => h x (List.mem_cons_of_mem a hx)
      exact ⟨b :: l', .cons hb hl'⟩

theorem mapM_eq_ok_iff_forall₂ {α γ ε : Type} (f : α → Except ε γ) (l : List α)
    (vs : List γ) :
    l.mapM f = .ok vs ↔ List.Forall₂ (fun a v => f a = .ok v) l vs := by
  induction l generalizing vs with
  | nil =>
    rw [List.forall₂_nil_left_iff]
    exact ⟨fun h => by cases h; rfl, fun h => by subst h; rfl⟩
  | cons a l ih =>
    simp only [List.mapM_cons, bind_eq_ok_iff, pure, Except.pure, Except.ok.injEq, ih,
      List.forall₂_cons_left_iff]
    constructor
    · rintro ⟨v, hv, ws, hws, rfl⟩
      exact ⟨v, ws, hv, hws, rfl⟩
    · rintro ⟨v, ws, hv, hws, rfl⟩
      exact ⟨v, hv, ws, hws, rfl⟩

theorem mapM_kinds_eq_ok_iff (l : List Block) (cs : List (Text × Option (List (Text × Json)))) :
    l.mapM (fun c => (c.kind, ·) <$> c.plannedValues) = .ok cs ↔
      List.Forall₂ (fun c e => e.1 = c.kind ∧ c.plannedValues = .ok e.2) l cs := by
  rw [mapM_eq_ok_iff_forall₂]
  constructor
  · refine List.Forall₂.imp fun c e h => ?_
    obtain ⟨v, hv, rfl⟩ := (map_eq_ok_iff _ _ _).1 h
    exact ⟨rfl, hv⟩
  · refine List.Forall₂.imp fun c e h => ?_
    obtain ⟨hk, hv⟩ := h
    rw [hv, ← hk]
    rfl

/-- A child's planned values: its values in JSON form, or an empty map when it has none but has
children, with its children added the same way. -/
theorem Block.plannedValues_eq_addChildren (b : Block) :
    b.plannedValues = (do
      let vs ← b.values.mapM (marshalValues b.kind)
      if b.children.isEmpty then pure vs
      else some <$> b.addChildren (vs.getD [])) := by
  rw [Block.plannedValues_eq]
  simp only [Block.addChildren, map_bind, map_pure]

section Children

variable [AttributeKey κ] [PlannedSlot β]

theorem addPlanned_eq_foldl (m : List (κ × β))
    (cs : List (Text × Option (List (Text × Json)))) :
    addPlanned m cs =
      (cs.map fun c => (c.1, PlannedSlot.ofPlanned (β := β) c.2)).foldl
        (fun m c => addChild m c.1 c.2) m := by
  rw [addPlanned, List.foldl_map]

/-- With room for the trees of a block's children, the calls add them as `Block.addChildren`
does. -/
theorem Block.addChildrenWithin_of_nestsWithin (room : Nat) (b : Block) (m : List (κ × β))
    (h : ∀ c ∈ b.children, c.nestsWithin room = true) :
    b.addChildrenWithin room m = b.addChildren m := by
  unfold Block.addChildrenWithin Block.addChildren
  rw [mapM_congr_of_mem _ _ _ fun c hc => by
    rw [Block.plannedValuesWithin_of_nestsWithin room c (h c hc)]]

/-- Adding a block's children runs over the children, pairing each with its kind and planned
values. -/
theorem Block.addChildren_eq_ok_iff (b : Block) (m m' : List (κ × β)) :
    b.addChildren m = .ok m' ↔
      ∃ cs : List (Text × Option (List (Text × Json))),
        List.Forall₂ (fun c e => e.1 = c.kind ∧ c.plannedValues = .ok e.2) b.children cs ∧
        m' = addPlanned m cs := by
  simp only [Block.addChildren, bind_pure_comp]
  constructor
  · intro h
    obtain ⟨cs, hcs, rfl⟩ := (map_eq_ok_iff _ _ _).1 h
    exact ⟨cs, (mapM_kinds_eq_ok_iff _ _).1 hcs, rfl⟩
  · rintro ⟨cs, hcs, rfl⟩
    exact (map_eq_ok_iff _ _ _).2 ⟨cs, (mapM_kinds_eq_ok_iff _ _).2 hcs, rfl⟩

/-- Adding a block's children to a map succeeds exactly when every child has planned values;
the map then holds them grouped by kind, after the list that stood under a kind, if any. -/
theorem addChildren_groups [LawfulAttributeKey κ] [LawfulPlannedSlot β] (b : Block)
    (m : List (κ × β)) :
    ((∃ m', b.addChildren m = .ok m') ↔
      ∀ c ∈ b.children, ∃ v, c.plannedValues = .ok v) ∧
    (∀ m', b.addChildren m = .ok m' →
      ∃ cs : List (Text × Option (List (Text × Json))),
        List.Forall₂ (fun c e => e.1 = c.kind ∧ c.plannedValues = .ok e.2) b.children cs ∧
        Grouped m (cs.map fun e => (e.1, PlannedSlot.ofPlanned e.2)) m') ∧
    (∀ c : Block, c.plannedValues = (do
      let vs ← c.values.mapM (marshalValues c.kind)
      if c.children.isEmpty then pure vs
      else some <$> c.addChildren (vs.getD []))) := by
  refine ⟨?_, ?_, Block.plannedValues_eq_addChildren⟩
  · -- a child has planned values exactly when it has them paired with its kind
    have hpair : ∀ c : Block, (∃ e : (Text × Option (List (Text × Json))),
        e.1 = c.kind ∧ c.plannedValues = .ok e.2) ↔ ∃ v, c.plannedValues = .ok v :=
      fun c =>
        ⟨fun ⟨e, _, he⟩ => ⟨e.2, he⟩, fun ⟨v, hv⟩ => ⟨(c.kind, v), rfl, hv⟩⟩
    simp only [← hpair, ← exists_forall₂_iff]
    constructor
    · rintro ⟨m', hm'⟩
      obtain ⟨cs, hcs, -⟩ := (b.addChildren_eq_ok_iff m m').1 hm'
      exact ⟨cs, hcs⟩
    · rintro ⟨cs, hcs⟩
      exact ⟨_, (b.addChildren_eq_ok_iff m _).2 ⟨cs, hcs, rfl⟩⟩
  · intro m' hm'
    obtain ⟨cs, hcs, rfl⟩ := (b.addChildren_eq_ok_iff m m').1 hm'
    refine ⟨cs, hcs, ?_⟩
    rw [addPlanned_eq_foldl]
    exact grouped_foldl m _

/-- A resource with one child of kind `tag` that has neither values nor children. -/
def taggedChild : Block :=
  ⟨"resource", "aws_instance", "web", [], [⟨"tag", "", "", [], [], none, false, none, "", ""⟩],
    some [], false, none, "", ""⟩

/-- A map with a list under `tag` and text under `ami`. -/
def taggedMap : List (Value × Value) := [(.str "tag", .list [.int 1]), (.str "ami", .str "x")]

theorem tagged_child_grouped :
    ((∃ m', taggedChild.addChildren taggedMap = .ok m') ↔
        ∀ c ∈ taggedChild.children, ∃ v, c.plannedValues = .ok v) ∧
      ∀ m', taggedChild.addChildren taggedMap = .ok m' →
        ∃ cs : List (Text × Option (List (Text × Json))),
          List.Forall₂ (fun c e => e.1 = c.kind ∧ c.plannedValues = .ok e.2)
            taggedChild.children cs ∧
          Grouped taggedMap (cs.map fun e => (e.1, PlannedSlot.ofPlanned e.2)) m' :=
  ⟨(addChildren_groups taggedChild taggedMap).1, (addChildren_groups taggedChild taggedMap).2.1⟩

/-- The child's null is appended to the list that stood under `tag`: the list is not the list of
the children's planned values alone. -/
theorem prior_list_absorbs_children :
    taggedChild.addChildren taggedMap =
      .ok [(.str "tag", .list [.int 1, .null]), (.str "ami", .str "x")] := by
  have hchild : (taggedChild.children.mapM fun c => (c.kind, ·) <$> c.plannedValues) =
      .ok [("tag", none)] := by
    rw [taggedChild, List.mapM_cons, Block.plannedValues_bare _ rfl rfl]
    rfl
  have hne : Text.ofString "ami" ≠ Text.ofString "tag" := by decide
  rw [Block.addChildren, hchild]
  simp [addPlanned, addChild, taggedMap, AttributeKey.isName, Value.eqv_str_iff, hne,
    PlannedSlot.ofPlanned, PlannedSlot.items?, PlannedSlot.ofItems, pure, Except.pure, bind,
    Except.bind]

/-- The keys of marshalled values are the keys of the values, `count` left out where it is
skipped. -/
theorem marshalValues_keys (kind : Text) (vals : List (κ × Value)) (vs : List (κ × Json))
    (h : marshalValues kind vals = .ok vs) :
    vs.map Prod.fst =
      (vals.filter fun e => !(skipsCount kind && AttributeKey.isName e.1 "count")).map
        Prod.fst := by
  unfold marshalValues at h
  rw [mapM_eq_ok_iff_forall₂] at h
  symm
  apply map_eq_of_forall₂
  refine h.imp fun e r he => ?_
  obtain ⟨j, -, rfl⟩ := (map_eq_ok_iff _ _ _).1 he
  rfl

end Children

/-! ## `count` in the planned values of a resource -/

theorem count_not_mem_marshalValues (kind : Text) (hk : skipsCount kind = true)
    (vals : List (Text × Value)) (vs : List (Text × Json))
    (h : marshalValues kind vals = .ok vs) :
    Text.ofString "count" ∉ vs.map Prod.fst := by
  rw [marshalValues_keys kind vals vs h]
  simp only [hk, Bool.true_and, List.mem_map, List.mem_filter, Bool.not_eq_eq_eq_not,
    Bool.not_true, not_exists, not_and]
  intro e hfalse heq
  simp [AttributeKey.isName, heq] at hfalse

/-- A block that leaves out its `count`, as resources do, has `count` among the top-level keys of
its planned values exactly when one of its children is of kind `count`. -/
theorem count_key_iff_count_child (b : Block) (hb : skipsCount b.kind = true)
    (m : List (Text × Json)) (h : b.plannedValues = .ok (some m)) :
    Text.ofString "count" ∈ m.map Prod.fst ↔
      ∃ c ∈ b.children, c.kind = Text.ofString "count" := by
  rw [Block.plannedValues_eq_addChildren] at h
  cases hv : b.values.mapM (marshalValues b.kind) with
  | error e =>
    rw [hv] at h
    cases h
  | ok vs =>
    rw [hv] at h
    have hown : Text.ofString "count" ∉ (vs.getD []).map Prod.fst := by
      cases hvs : vs with
      | none => simp
      | some own =>
        cases hvals : b.values with
        | none => rw [hvals, hvs] at hv; cases hv
        | some vals =>
          rw [hvals, hvs, Option.mapM_some] at hv
          obtain ⟨own', hown', hsome⟩ := (map_eq_ok_iff _ _ _).1 hv
          cases hsome
          exact count_not_mem_marshalValues b.kind hb vals _ hown'
    by_cases hc : b.children.isEmpty
    · simp only [hc, if_true, bind, Except.bind, pure, Except.pure, Except.ok.injEq] at h
      subst h
      have hnil : b.children = [] := List.isEmpty_iff.1 hc
      simp only [Option.getD_some] at hown
      simp [hown, hnil]
    · simp only [hc, Bool.false_eq_true, if_false, bind, Except.bind] at h
      obtain ⟨m', hm', hsome⟩ := (map_eq_ok_iff _ _ _).1 h
      cases hsome
      obtain ⟨cs, hcs, rfl⟩ := (b.addChildren_eq_ok_iff _ _).1 hm'
      have hkeys :=
        (grouped_foldl (vs.getD []) (cs.map fun e => (e.1, PlannedSlot.ofPlanned e.2))).keys
      rw [← addPlanned_eq_foldl] at hkeys
      have hkinds : cs.map Prod.fst = b.children.map Block.kind :=
        (map_eq_of_forall₂ _ _ (hcs.imp fun _ _ he => he.1.symm)).symm
      have hbase :
          ((vs.getD []).any fun e => AttributeKey.isName e.1 (Text.ofString "count")) = false := by
        rw [List.any_eq_false]
        intro e he hname
        exact hown (List.mem_map.2 ⟨e, he, by simpa [AttributeKey.isName] using hname⟩)
      -- the children that no own value names are all of them, and `count` is among their kinds
      -- exactly when some child is of kind `count`
      have hcount : (∃ c ∈ cs.map (fun e => (e.1, PlannedSlot.ofPlanned (β := Json) e.2)),
          c.1 = Text.ofString "count") ↔
          ∃ c ∈ b.children, c.kind = Text.ofString "count" := by
        have hL : (cs.map fun e => (e.1, PlannedSlot.ofPlanned (β := Json) e.2)).map Prod.fst =
            b.children.map Block.kind := by
          rw [List.map_map]
          exact hkinds
        rw [← List.mem_map, hL, List.mem_map]
      have hofName : (newKinds (vs.getD []) (cs.map fun e => (e.1, PlannedSlot.ofPlanned e.2))).map
          (AttributeKey.ofName (κ := Text)) =
          newKinds (vs.getD []) (cs.map fun e => (e.1, PlannedSlot.ofPlanned e.2)) :=
        List.map_id _
      rw [hkeys, List.mem_append, hofName, mem_newKinds, hcount]
      simp [hown, hbase]

end BlockPlan
