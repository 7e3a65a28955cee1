import BlockPlan.Proofs.FirstFault
import BlockPlan.Proofs.JsonForm

/-!
# Sets in any order

A set or frozen set has no order of its own: the order in which its elements are met may differ
from one run to the next. `Value.Reorders v w` says that `w` is `v` with the elements of each
set and frozen set in it, at any depth, met in some order.

The JSON form of a set sorts the elements by the spaced text of their key forms, and the sort is
stable. Its result would follow the order only through elements with one key text and different
forms; but the key form of an element is its JSON form with doubles that are no number allowed,
so its form, when found, is its key form (`Value.toJsonWithin_lenient`), and spaced text is read
back whole (`Json.write_spaced_injective`). So a value whose texts are made of code points has the
same JSON form, or none, in every order (`Value.Reorders.toJson_form_eq`):

    v.Reorders w → v.ValidText → v.toJson.toOption = w.toJson.toOption

What does follow the order is the failure. The keys are all found, in the order the elements are
met, before anything is sorted, and when two elements have no key the failure reported is that
of the one met first (`set_failure_follows_order`).
-/

namespace BlockPlan

/-- `v.Reorders w`: `w` is `v` with the elements of each set and frozen set in it, at any depth,
met in some order; everything else is as it is. -/
inductive Value.Reorders : Value → Value → Prop
  /-- Any value, with each set in the order it has. -/
  | refl (v : Value) : Value.Reorders v v
  | list {xs ys : List Value} : List.Forall₂ Value.Reorders xs ys →
      Value.Reorders (.list xs) (.list ys)
  | tuple {xs ys : List Value} : List.Forall₂ Value.Reorders xs ys →
      Value.Reorders (.tuple xs) (.tuple ys)
  /-- A map keeps the order of its entries; its keys and values may be reordered inside. -/
  | map {kvs kvs' : List (Value × Value)} :
      List.Forall₂ Value.Reorders (kvs.map Prod.fst) (kvs'.map Prod.fst) →
      List.Forall₂ Value.Reorders (kvs.map Prod.snd) (kvs'.map Prod.snd) →
      Value.Reorders (.map kvs) (.map kvs')
  | set {xs ys zs : List Value} : List.Forall₂ Value.Reorders xs ys → ys.Perm zs →
      Value.Reorders (.set xs) (.set zs)
  | frozenset {xs ys zs : List Value} : List.Forall₂ Value.Reorders xs ys → ys.Perm zs →
      Value.Reorders (.frozenset xs) (.frozenset zs)
  | knot (id : Nat) {b b' : Value} : Value.Reorders b b' →
      Value.Reorders (.knot id b) (.knot id b')

/-! ## The order of texts -/

theorem compareList_swap (a b : List Nat) :
    Text.compareList b a = (Text.compareList a b).swap := by
  induction a generalizing b with
  | nil => cases b <;> rfl
  | cons x as ih =>
    cases b with
    | nil => rfl
    | cons y bs =>
      simp only [Text.compareList]
      by_cases hxy : x < y
      · rw [if_neg (by omega), if_pos hxy, if_pos hxy]
        rfl
      · by_cases hyx : y < x
        · rw [if_pos hyx, if_neg hxy, if_pos hyx]
          rfl
        · rw [if_neg hyx, if_neg hxy, if_neg hxy, if_neg hyx, ih]

theorem compareList_eq_iff (a b : List Nat) : Text.compareList a b = .eq ↔ a = b := by
  induction a generalizing b with
  | nil => cases b <;> simp [Text.compareList]
  | cons x as ih =>
    cases b with
    | nil => simp [Text.compareList]
    | cons y bs =>
      simp only [Text.compareList, List.cons.injEq]
      by_cases hxy : x < y
      · rw [if_pos hxy]
        simp only [reduceCtorEq, false_iff, not_and]
        omega
      · by_cases hyx : y < x
        · rw [if_neg hxy, if_pos hyx]
          simp only [reduceCtorEq, false_iff, not_and]
          omega
        · rw [if_neg hxy, if_neg hyx, ih]
          constructor
          · intro h
            exact ⟨by omega, h⟩
          · exact fun h => h.2

/-- One list is at most another: its first differing code point is smaller, or it is a prefix. -/
theorem compareList_cons_ne_gt (x y : Nat) (as bs : List Nat) :
    Text.compareList (x :: as) (y :: bs) ≠ .gt ↔
      x < y ∨ (x = y ∧ Text.compareList as bs ≠ .gt) := by
  simp only [Text.compareList]
  by_cases hxy : x < y
  · simp [hxy]
  · by_cases hyx : y < x
    · simp only [hxy, hyx, if_false, if_true, ne_eq, not_true_eq_false, false_or, false_iff,
        not_and]
      intro h
      omega
    · simp only [hxy, hyx, if_false, false_or]
      constructor
      · intro h
        exact ⟨by omega, h⟩
      · exact fun h => h.2

theorem compareList_le_trans (a b c : List Nat) (hab : Text.compareList a b ≠ .gt)
    (hbc : Text.compareList b c ≠ .gt) : Text.compareList a c ≠ .gt := by
  induction a generalizing b c with
  | nil => cases c <;> simp [Text.compareList]
  | cons x as ih =>
    cases b with
    | nil => simp [Text.compareList] at hab
    | cons y bs =>
      cases c with
      | nil => simp [Text.compareList] at hbc
      | cons z cs =>
        rw [compareList_cons_ne_gt] at hab hbc ⊢
        rcases hab with hxy | ⟨rfl, has⟩
        · rcases hbc with hyz | ⟨rfl, -⟩
          · exact .inl (by omega)
          · exact .inl hxy
        · rcases hbc with hyz | ⟨rfl, hbs⟩
          · exact .inl hyz
          · exact .inr ⟨rfl, ih bs cs has hbs⟩

theorem Text.le_total (a b : Text) : (Text.le a b || Text.le b a) = true := by
  simp only [Text.le, Bool.or_eq_true, bne_iff_ne, ne_eq, compareList_swap a.points b.points]
  cases Text.compareList a.points b.points <;> simp [Ordering.swap]

theorem Text.le_trans (a b c : Text) (hab : Text.le a b = true) (hbc : Text.le b c = true) :
    Text.le a c = true := by
  simp only [Text.le, bne_iff_ne, ne_eq] at hab hbc ⊢
  exact compareList_le_trans _ _ _ hab hbc

theorem Text.eq_of_le_of_le (a b : Text) (hab : Text.le a b = true) (hba : Text.le b a = true) :
    a = b := by
  simp only [Text.le, bne_iff_ne, ne_eq, compareList_swap a.points b.points] at hab hba
  have heq : Text.compareList a.points b.points = .eq := by
    cases h : Text.compareList a.points b.points <;> simp_all [Ordering.swap]
  cases a
  cases b
  exact congrArg Text.mk ((compareList_eq_iff _ _).1 heq)

/-! ## Sorting by key -/

/-- The sort key of an element whose key form was found, beside its form. -/
def keyedForm (p : Option Json × Option Json) : Text × Option Json :=
  ((p.1.map (Json.write .spaced)).getD Text.empty, p.2)

/-- The JSON form of a set from the key form and the form of each element, each found or not:
nothing unless every key form is found, and then the forms in the order of the keys' spaced
text, nothing if one is missing. -/
def sortedForm (ps : List (Option Json × Option Json)) : Option Json :=
  if ps.all (·.1.isSome) then
    Json.arr <$> ((ps.map keyedForm).mergeSort fun a b => Text.le a.1 b.1).mapM Prod.snd
  else none

theorem pairwise_sortedKeys {β : Type} (l : List (Text × β)) :
    (l.mergeSort fun a b => Text.le a.1 b.1).Pairwise fun a b => Text.le a.1 b.1 = true :=
  List.pairwise_mergeSort (fun a b c hab hbc => Text.le_trans a.1 b.1 c.1 hab hbc)
    (fun a b => Text.le_total a.1 b.1) l

/-- The JSON form of a set does not depend on the order of its elements, when elements with one
key form have one form and no two key forms have one spaced text. -/
theorem sortedForm_perm (ps qs : List (Option Json × Option Json)) (hperm : ps.Perm qs)
    (hinj : ∀ p ∈ ps, ∀ q ∈ ps, ∀ a b, p.1 = some a → q.1 = some b →
      Json.write .spaced a = Json.write .spaced b → a = b)
    (hform : ∀ p ∈ ps, ∀ j, p.2 = some j → p.1 = some j) :
    sortedForm ps = sortedForm qs := by
  unfold sortedForm
  have hall : ps.all (·.1.isSome) = qs.all (·.1.isSome) := by
    rw [Bool.eq_iff_iff, List.all_eq_true, List.all_eq_true]
    exact ⟨fun h q hq => h q (hperm.mem_iff.2 hq), fun h p hp => h p (hperm.mem_iff.1 hp)⟩
  rw [← hall]
  split
  swap
  · rfl
  have hsorted : ((ps.map keyedForm).mergeSort fun a b => Text.le a.1 b.1).Perm
      ((qs.map keyedForm).mergeSort fun a b => Text.le a.1 b.1) :=
    (List.mergeSort_perm _ _).trans ((hperm.map keyedForm).trans (List.mergeSort_perm _ _).symm)
  by_cases hnone : ∃ p ∈ ps, p.2 = none
  · -- a form is missing: both traversals fail
    obtain ⟨p, hp, hp2⟩ := hnone
    have hmem : keyedForm p ∈ (ps.map keyedForm).mergeSort fun a b => Text.le a.1 b.1 :=
      (List.mergeSort_perm _ _).mem_iff.2 (List.mem_map_of_mem hp)
    rw [(mapM_eq_none_iff _ _).2 ⟨_, hmem, hp2⟩,
      (mapM_eq_none_iff _ _).2 ⟨_, hsorted.mem_iff.1 hmem, hp2⟩]
  · -- every form is found, and then equals its key form: an element is its key
    push Not at hnone
    congr 2
    apply List.Perm.eq_of_pairwise _ (pairwise_sortedKeys _) (pairwise_sortedKeys _) hsorted
    intro a b ha hb hab hba
    have hkey := Text.eq_of_le_of_le a.1 b.1 hab hba
    obtain ⟨p, hp, rfl⟩ := List.mem_map.1 ((List.mergeSort_perm _ _).mem_iff.1 ha)
    obtain ⟨q, hq, rfl⟩ := List.mem_map.1
      ((List.mergeSort_perm _ _).mem_iff.1 (hsorted.mem_iff.2 hb))
    obtain ⟨jp, hjp⟩ := Option.ne_none_iff_exists'.1 (hnone p hp)
    obtain ⟨jq, hjq⟩ := Option.ne_none_iff_exists'.1 (hnone q hq)
    have hp1 := hform p hp jp hjp
    have hq1 := hform q hq jq hjq
    simp only [keyedForm, hp1, hq1, Option.map_some, Option.getD_some] at hkey ⊢
    rw [hjp, hjq, hinj p hp q hq jp jq hp1 hq1 hkey]

/-! ## The JSON form of a set, element by element -/

/-- What the JSON form of an element contributes to the JSON form of a set: whether its key form
and its form are found, and which. -/
def elementView (lenient : Bool) (fuel : Nat) (x : Value) : Option Json × Option Json :=
  ((x.toJsonWithin true fuel).toOption, (x.toJsonWithin lenient fuel).toOption)

/-- The keys found for the elements of a set, seen through the elements' views. -/
theorem keyed_view (lenient : Bool) (fuel : Nat) (xs : List Value) (keyed : List (Text × Value))
    (h : (xs.mapM fun x => (fun j => (Json.write .spaced j, x)) <$> x.toJsonWithin true fuel) =
      .ok keyed) :
    (xs.map (elementView lenient fuel)).all (·.1.isSome) = true ∧
      (xs.map (elementView lenient fuel)).map keyedForm =
        keyed.map fun p => (p.1, (p.2.toJsonWithin lenient fuel).toOption) := by
  induction xs generalizing keyed with
  | nil =>
    cases h
    exact ⟨rfl, rfl⟩
  | cons x xs ih =>
    rw [List.mapM_cons] at h
    obtain ⟨p, hp, hrest⟩ := (bind_eq_ok_iff _ _ _).1 h
    obtain ⟨j, hj, rfl⟩ := (map_eq_ok_iff _ _ _).1 hp
    obtain ⟨keyed', hkeyed', hk⟩ := (bind_eq_ok_iff _ _ _).1 hrest
    cases hk
    obtain ⟨hall, hmap⟩ := ih keyed' hkeyed'
    refine ⟨?_, ?_⟩
    · simp only [List.map_cons, List.all_cons, elementView, hj, toOption_ok, Option.isSome_some,
        Bool.true_and]
      exact hall
    · simp only [List.map_cons, hmap, elementView, hj, keyedForm, toOption_ok, Option.map_some,
        Option.getD_some]

/-- The JSON form of a set, with its error forgotten, is the sorted form of its elements'
views. -/
theorem toOption_set (lenient : Bool) (fuel : Nat) (xs : List Value) :
    ((Value.set xs).toJsonWithin lenient (fuel + 1)).toOption =
      sortedForm (xs.map (elementView lenient fuel)) := by
  rw [Value.toJsonWithin_set, toOption_bind]
  cases hkeys : (xs.mapM fun x => (fun j => (Json.write .spaced j, x)) <$> x.toJsonWithin true fuel)
    with
  | error e =>
    obtain ⟨pre, x, post, rfl, -, hx⟩ := (mapM_eq_error_iff _ _ _).1 hkeys
    have hkx : (x.toJsonWithin true fuel).toOption = none := by
      cases hk : x.toJsonWithin true fuel with
      | error e' => rfl
      | ok j => rw [hk] at hx; cases hx
    unfold sortedForm
    rw [if_neg]
    · rfl
    · simp only [List.all_eq_true, List.mem_map, forall_exists_index, and_imp, not_forall]
      exact ⟨_, x, by simp, rfl, by simp [elementView, hkx]⟩
  | ok keyed =>
    obtain ⟨hall, hmap⟩ := keyed_view lenient fuel xs keyed hkeys
    simp only [toOption_ok, Option.bind_some, toOption_map, toOption_mapM]
    unfold sortedForm
    -- the views carry each element's key beside it, so sorting them sorts the keys
    rw [if_pos hall, hmap,
      ← List.map_mergeSort (r := fun a b : Text × Value => Text.le a.1 b.1)
        (f := fun p : Text × Value => (p.1, (p.2.toJsonWithin lenient fuel).toOption))
        (fun a _ b _ => rfl),
      List.mapM_map]
    rfl

/-! ## Reordering keeps the JSON form -/

theorem Value.Reorders.typeName_eq {v w : Value} (h : v.Reorders w) : v.typeName = w.typeName := by
  cases h with
  | knot id h => exact h.typeName_eq
  | _ => rfl

theorem Value.Reorders.keyText_eq (lenient : Bool) {v w : Value} (h : v.Reorders w) :
    keyText lenient v = keyText lenient w := by
  cases h with
  | knot id h => simp only [keyText, Value.typeName, h.typeName_eq]
  | _ => rfl

section Views

variable (lenient : Bool) (fuel : Nat) {xs : List Value}

theorem elementView_key_injective (hv : ∀ x ∈ xs, x.ValidText) :
    ∀ p ∈ xs.map (elementView lenient fuel), ∀ q ∈ xs.map (elementView lenient fuel),
      ∀ a b, p.1 = some a → q.1 = some b → Json.write .spaced a = Json.write .spaced b → a = b := by
  simp only [List.mem_map, forall_exists_index, and_imp]
  rintro _ x hx rfl _ y hy rfl a b ha hb hab
  rw [elementView, toOption_eq_some_iff] at ha hb
  exact Json.write_spaced_injective a b (x.allJoined_toJsonWithin true fuel a ha (hv x hx))
    (y.allJoined_toJsonWithin true fuel b hb (hv y hy)) hab

theorem elementView_key_of_form :
    ∀ p ∈ xs.map (elementView lenient fuel), ∀ j, p.2 = some j → p.1 = some j := by
  simp only [List.mem_map, forall_exists_index, and_imp]
  rintro _ x hx rfl j hj
  rw [elementView, toOption_eq_some_iff] at hj ⊢
  exact x.toJsonWithin_lenient lenient fuel j hj

/-- Sets whose elements have valid texts and, one by one, the same key forms and forms, met in
any order, have the same sorted form. -/
theorem sortedForm_views_perm {ys zs : List Value} (hv : ∀ x ∈ xs, x.ValidText)
    (hkeys : List.Forall₂ (fun x y => (x.toJsonWithin true fuel).toOption =
      (y.toJsonWithin true fuel).toOption) xs ys)
    (hforms : List.Forall₂ (fun x y => (x.toJsonWithin lenient fuel).toOption =
      (y.toJsonWithin lenient fuel).toOption) xs ys)
    (hperm : ys.Perm zs) :
    sortedForm (xs.map (elementView lenient fuel)) =
      sortedForm (zs.map (elementView lenient fuel)) := by
  have hviews : xs.map (elementView lenient fuel) = ys.map (elementView lenient fuel) :=
    map_eq_of_forall₂ _ _ ((forall₂_both hkeys hforms).imp fun _ _ h => Prod.ext h.1 h.2)
  apply sortedForm_perm
  · rw [hviews]
    exact hperm.map _
  · exact elementView_key_injective lenient fuel hv
  · exact elementView_key_of_form lenient fuel

end Views

mutual

/-- Reordering the sets in a value with valid texts changes neither whether it has a JSON form
nor which. -/
theorem Value.Reorders.toOption_toJsonWithin {v w : Value} (h : v.Reorders w) (hv : v.ValidText)
    (lenient : Bool) (fuel : Nat) :
    (v.toJsonWithin lenient fuel).toOption = (w.toJsonWithin lenient fuel).toOption := by
  cases h with
  | refl => rfl
  | list hxs =>
    cases hv with | list hv => ?_
    cases fuel with
    | zero => simp
    | succ fuel =>
      simp only [Value.toJsonWithin_list_succ, toOption_map, toOption_mapM]
      rw [mapM_eq_of_forall₂ _ _ (Value.Reorders.forall₂_toOption hxs hv lenient fuel)]
  | tuple hxs =>
    cases hv with | tuple hv => ?_
    cases fuel with
    | zero => simp
    | succ fuel =>
      simp only [Value.toJsonWithin_tuple_succ, toOption_map, toOption_mapM]
      rw [mapM_eq_of_forall₂ _ _ (Value.Reorders.forall₂_toOption hxs hv lenient fuel)]
  | map hkeys hvals =>
    cases hv with | map hvk hvv => ?_
    cases fuel with
    | zero => simp
    | succ fuel =>
      simp only [Value.toJsonWithin_map_succ, toOption_map, toOption_foldlM]
      have hk := (hkeys.imp fun _ _ hr => hr.keyText_eq lenient)
      have hj := Value.Reorders.forall₂_toOption hvals (fun x hx => by
        obtain ⟨kv, hkv, rfl⟩ := List.mem_map.1 hx
        exact hvv kv hkv) lenient fuel
      rw [List.forall₂_map_left_iff, List.forall₂_map_right_iff] at hk hj
      rw [foldlM_eq_of_forall₂ _ _ ((forall₂_both hk hj).imp ?_)]
      rintro e e' ⟨hke, hje⟩ acc
      simp only [toOption_bind, hke, hje]
  | set hxs hperm =>
    cases hv with | set hv => ?_
    cases fuel with
    | zero => simp
    | succ fuel =>
      rw [toOption_set, toOption_set]
      exact sortedForm_views_perm lenient fuel hv
        (Value.Reorders.forall₂_toOption hxs hv true fuel)
        (Value.Reorders.forall₂_toOption hxs hv lenient fuel) hperm
  | frozenset hxs hperm =>
    cases hv with | frozenset hv => ?_
    cases fuel with
    | zero => simp
    | succ fuel =>
      rw [Value.toJsonWithin_frozenset, Value.toJsonWithin_frozenset, toOption_set, toOption_set]
      exact sortedForm_views_perm lenient fuel hv
        (Value.Reorders.forall₂_toOption hxs hv true fuel)
        (Value.Reorders.forall₂_toOption hxs hv lenient fuel) hperm
  | knot id hb =>
    cases hv with | knot _ hv => ?_
    simp only [Value.toJsonWithin_knot]
    exact hb.toOption_toJsonWithin hv lenient fuel
-- the fuel falls at each container; at a knot and along a list of items, the size falls
termination_by (fuel, sizeOf v)

theorem Value.Reorders.forall₂_toOption {xs ys : List Value}
    (h : List.Forall₂ Value.Reorders xs ys) (hv : ∀ x ∈ xs, x.ValidText) (lenient : Bool) (fuel : Nat) :
    List.Forall₂ (fun x y => (x.toJsonWithin lenient fuel).toOption =
      (y.toJsonWithin lenient fuel).toOption) xs ys := by
  cases h with
  | nil => exact .nil
  | cons hxy hrest =>
    exact .cons (hxy.toOption_toJsonWithin (hv _ List.mem_cons_self) lenient fuel)
      (Value.Reorders.forall₂_toOption hrest (fun x hx => hv x (List.mem_cons_of_mem _ hx))
        lenient fuel)
termination_by (fuel, sizeOf xs)

end

/-- Reordering the sets in a value whose texts are made of code points changes neither whether
it has a JSON form nor which. -/
theorem Value.Reorders.toJson_form_eq {v w : Value} (h : v.Reorders w) (hv : v.ValidText) :
    v.toJson.toOption = w.toJson.toOption :=
  h.toOption_toJsonWithin hv false depthLimit

/-! ## The kind of failure follows the order -/

/-- A set whose keys cannot all be found fails as finding them fails, whatever its elements'
own JSON forms. -/
theorem toJsonWithin_set_of_keys_error (lenient : Bool) (fuel : Nat) (xs : List Value)
    (e : EncodeError) (h : outcome (xs.mapM (Value.toJsonWithin true fuel)) = .error e) :
    (Value.set xs).toJsonWithin lenient (fuel + 1) = .error e := by
  rw [Value.toJsonWithin_set]
  -- the keys are the JSON forms with the element beside each; pairing them keeps the outcome
  have hkeys : outcome (xs.mapM fun x => (fun j => (Json.write .spaced j, x)) <$>
      x.toJsonWithin true fuel) = .error e := by
    rw [← h]
    exact outcome_mapM_congr _ _ _ fun x _ => outcome_map _ _
  rw [outcome_eq_error_iff] at hkeys
  rw [hkeys]
  rfl

/-- A whole number with more decimal digits than may be written out. -/
def longWhole : Int := ((0x1FFFFFFFFFFFFFFF * Nat.pow 16 3600 : Nat) : Int)

theorem exceedsDigitLimit_longWhole : Numeral.exceedsDigitLimit longWhole = true := by
  decide +kernel

/-- The same set of a long whole number and a date, met in its two orders: the one fails because
the number cannot be written out, the other because a date has no JSON form. -/
theorem set_failure_follows_order :
    Value.Reorders (.set [.int longWhole, .date "2024-01-01"])
        (.set [.date "2024-01-01", .int longWhole]) ∧
      (Value.set [.int longWhole, .date "2024-01-01"]).toJson = .error .longWhole ∧
      (Value.set [.date "2024-01-01", .int longWhole]).toJson = .error (.unsupported "date") := by
  refine ⟨.set (.cons (.refl _) (.cons (.refl _) .nil)) (.swap _ _ _), ?_, ?_⟩
  · apply toJsonWithin_set_of_keys_error false 499
    simp [List.mapM_cons, exceedsDigitLimit_longWhole, bind, Except.bind]
  · apply toJsonWithin_set_of_keys_error false 499
    simp [List.mapM_cons, bind, Except.bind]

end BlockPlan
