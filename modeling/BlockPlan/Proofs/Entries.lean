import Mathlib.Data.List.Induction
import BlockPlan.Plan.Expressions

/-!
# Maps kept as entry lists

Provider tables and expression maps are lists of entries kept in insertion order. `putEntry`
puts a value under a key in place of the value standing there, or as a new entry at the end;
`appendUnder` adds an item to the group under a key, or starts a group at the end.

Put one by one into no entries (`putAll`), a list of entries gives

* the keys of the list, each once, in order of first occurrence (`keys_putAll`);
* under each key the value of the last entry of that key (`lookup_putAll`);
* as a whole, in another order, the entries that no later entry of the same key follows
  (`putAll_perm_lastBy`).

Grouped one by one (`groupAll`), a list of items has each key once, and every item stands in
exactly one group (`groupAll_flatMap_perm`).
-/

namespace BlockPlan

/-- The items of a list that no later item of the same key follows, in order. -/
def lastBy {β κ : Type} [BEq κ] (key : β → κ) : List β → List β
  | [] => []
  | x :: l => if l.any (fun y => key y == key x) then lastBy key l else x :: lastBy key l

/-- The entries of a list put one by one into no entries. -/
def putAll {κ α : Type} [BEq κ] (l : List (κ × α)) : List (κ × α) :=
  l.foldl (fun m x => putEntry m x.1 x.2) []

/-- The items of a list added one by one, each under its key, to no groups. -/
def groupAll {α : Type} (l : List (Text × α)) : List (Text × List α) :=
  l.foldl (fun m x => appendUnder m x.1 x.2) []

section Entries

variable {κ α β : Type} [DecidableEq κ]

theorem any_key_eq_iff (m : List (κ × α)) (k : κ) :
    m.any (fun e => e.1 == k) = true ↔ k ∈ m.map Prod.fst := by
  simp [List.any_eq_true]

theorem keys_map_update (m : List (κ × α)) (k : κ) (f : α → α) :
    (m.map fun e => if e.1 == k then (e.1, f e.2) else e).map Prod.fst = m.map Prod.fst := by
  rw [List.map_map]
  apply List.map_congr_left
  intro e _
  dsimp only [Function.comp]
  split <;> rfl

theorem map_update_of_not_mem (m : List (κ × α)) (k : κ) (g : κ × α → κ × α)
    (hk : k ∉ m.map Prod.fst) : (m.map fun e => if e.1 == k then g e else e) = m := by
  conv => rhs; rw [← List.map_id' m]
  apply List.map_congr_left
  intro e he
  have hne : e.1 ≠ k := fun h => hk (h ▸ List.mem_map_of_mem he)
  simp [hne]

theorem keys_putEntry (m : List (κ × α)) (k : κ) (v : α) :
    (putEntry m k v).map Prod.fst =
      if k ∈ m.map Prod.fst then m.map Prod.fst else m.map Prod.fst ++ [k] := by
  unfold putEntry
  by_cases hk : k ∈ m.map Prod.fst
  · rw [if_pos ((any_key_eq_iff m k).2 hk), if_pos hk]
    exact keys_map_update m k (fun _ => v)
  · rw [if_neg (mt (any_key_eq_iff m k).1 hk), if_neg hk, List.map_append]
    rfl

theorem keys_appendUnder (m : List (Text × List α)) (k : Text) (item : α) :
    (appendUnder m k item).map Prod.fst =
      if k ∈ m.map Prod.fst then m.map Prod.fst else m.map Prod.fst ++ [k] := by
  unfold appendUnder
  by_cases hk : k ∈ m.map Prod.fst
  · rw [if_pos ((any_key_eq_iff m k).2 hk), if_pos hk]
    exact keys_map_update m k (· ++ [item])
  · rw [if_neg (mt (any_key_eq_iff m k).1 hk), if_neg hk, List.map_append]
    rfl

theorem nodup_of_keys_eq_ite {ks ks' : List κ} {k : κ}
    (h : ks' = if k ∈ ks then ks else ks ++ [k]) (hks : ks.Nodup) : ks'.Nodup := by
  rw [h]
  split
  · exact hks
  · rename_i hk
    rw [List.nodup_append]
    exact ⟨hks, by simp, fun a ha b hb hab => hk (by simp_all)⟩

/-- A run of steps that each keep the keys or add a new key at the end, started from no keys,
has each key of the run once, in order of first occurrence. -/
theorem keys_foldl_eq_eraseDups {σ γ : Type} (keys : σ → List κ) (key : γ → κ) (step : σ → γ → σ)
    (hstep : ∀ s x, keys (step s x) = if key x ∈ keys s then keys s else keys s ++ [key x])
    (l : List γ) {s : σ} (hs : keys s = []) : keys (l.foldl step s) = (l.map key).eraseDups := by
  induction l using List.reverseRecOn with
  | nil => exact hs
  | append_singleton l x ih =>
    rw [List.foldl_append, List.foldl_cons, List.foldl_nil, hstep, ih, List.map_append,
      List.eraseDups_append, List.map_singleton]
    generalize l.map key = ks
    by_cases hx : key x ∈ ks <;> simp [hx, List.removeAll, List.eraseDups_cons]

theorem nodup_keys_foldl {σ γ : Type} (keys : σ → List κ) (key : γ → κ) (step : σ → γ → σ)
    (hstep : ∀ s x, keys (step s x) = if key x ∈ keys s then keys s else keys s ++ [key x])
    (l : List γ) {s : σ} (hs : (keys s).Nodup) : (keys (l.foldl step s)).Nodup := by
  induction l using List.reverseRecOn with
  | nil => exact hs
  | append_singleton l x ih =>
    rw [List.foldl_append, List.foldl_cons, List.foldl_nil]
    exact nodup_of_keys_eq_ite (hstep _ _) ih

theorem lookup_cons_ite (e : κ × α) (m : List (κ × α)) (k : κ) :
    (e :: m).lookup k = if k = e.1 then some e.2 else m.lookup k := by
  obtain ⟨k₀, v₀⟩ := e
  by_cases h : k = k₀
  · simp [h]
  · simp [h, List.lookup_cons, beq_false_of_ne h]

theorem lookup_map_update (m : List (κ × α)) (k k' : κ) (v : α) :
    (m.map fun e => if e.1 == k then (e.1, v) else e).lookup k' =
      (m.lookup k').map fun w => if k' = k then v else w := by
  induction m with
  | nil => rfl
  | cons e m ih =>
    rw [List.map_cons, lookup_cons_ite, lookup_cons_ite, ih]
    by_cases he : e.1 = k
    · by_cases h' : k' = k <;> simp [he, h']
    · by_cases h' : k' = e.1 <;> simp [he, h']

theorem lookup_isSome_of_mem (m : List (κ × α)) (k : κ) (hk : k ∈ m.map Prod.fst) :
    (m.lookup k).isSome := by
  induction m with
  | nil => simp at hk
  | cons e m ih =>
    rw [lookup_cons_ite]
    by_cases h : k = e.1
    · simp [h]
    · rw [if_neg h]
      exact ih (by simpa [h] using hk)

/-- Looking a key up after a value is put under another key finds what it found before. -/
theorem lookup_putEntry (m : List (κ × α)) (k k' : κ) (v : α) :
    (putEntry m k v).lookup k' = if k' = k then some v else m.lookup k' := by
  unfold putEntry
  by_cases hk : k ∈ m.map Prod.fst
  · rw [if_pos ((any_key_eq_iff m k).2 hk), lookup_map_update]
    by_cases h' : k' = k
    · subst h'
      obtain ⟨w, hw⟩ := Option.isSome_iff_exists.1 (lookup_isSome_of_mem m k' hk)
      simp [hw]
    · simp [h']
  · rw [if_neg (mt (any_key_eq_iff m k).1 hk), List.lookup_append]
    by_cases h' : k' = k
    · subst h'
      have hnone : m.lookup k' = none := by
        rw [List.lookup_eq_none_iff]
        intro e he
        have hne : k' ≠ e.1 := fun h => hk (h ▸ List.mem_map_of_mem he)
        simpa using hne
      simp [hnone, lookup_cons_ite]
    · cases m.lookup k' <;> simp [h', lookup_cons_ite]

/-! ## Putting a whole list -/

@[simp] theorem putAll_nil : putAll ([] : List (κ × α)) = [] := rfl

theorem putAll_append_singleton (l : List (κ × α)) (x : κ × α) :
    putAll (l ++ [x]) = putEntry (putAll l) x.1 x.2 := by
  simp [putAll, List.foldl_append]

theorem keys_putAll (l : List (κ × α)) : (putAll l).map Prod.fst = (l.map Prod.fst).eraseDups :=
  keys_foldl_eq_eraseDups (·.map Prod.fst) Prod.fst _ (fun m x => keys_putEntry m x.1 x.2) l rfl

theorem nodup_keys_putAll (l : List (κ × α)) : ((putAll l).map Prod.fst).Nodup :=
  nodup_keys_foldl (·.map Prod.fst) Prod.fst _ (fun m x => keys_putEntry m x.1 x.2) l
    List.nodup_nil

theorem lookup_putAll (l : List (κ × α)) (k : κ) :
    (putAll l).lookup k = ((l.filter fun x => x.1 == k).getLast?).map Prod.snd := by
  induction l using List.reverseRecOn with
  | nil => rfl
  | append_singleton l x ih =>
    rw [putAll_append_singleton, lookup_putEntry, ih, List.filter_append, List.getLast?_append]
    by_cases hx : k = x.1
    · simp [hx]
    · have hx' : (x.1 == k) = false := by simpa using Ne.symm hx
      simp [hx, hx']

/-! ## The entries that are kept -/

theorem lastBy_append_singleton (key : β → κ) (l : List β) (x : β) :
    lastBy key (l ++ [x]) = (lastBy key l).filter (fun y => !(key y == key x)) ++ [x] := by
  induction l with
  | nil => simp [lastBy]
  | cons y l ih =>
    simp only [List.cons_append, lastBy, List.any_append, List.any_cons, List.any_nil,
      Bool.or_false, ih]
    by_cases hl : l.any (fun z => key z == key y) = true
    · simp [hl]
    · by_cases hxy : key x = key y
      · simp [hl, hxy]
      · simp [hl, hxy, Ne.symm hxy]

theorem lastBy_of_nodup (key : β → κ) (l : List β) (h : (l.map key).Nodup) : lastBy key l = l := by
  induction l with
  | nil => rfl
  | cons x l ih =>
    rw [List.map_cons, List.nodup_cons] at h
    have hnot : l.any (fun y => key y == key x) = false := by
      rw [Bool.eq_false_iff]
      intro hany
      obtain ⟨y, hy, hyx⟩ := List.any_eq_true.1 hany
      exact h.1 (List.mem_map.2 ⟨y, hy, beq_iff_eq.1 hyx⟩)
    simp [lastBy, hnot, ih h.2]

theorem lastBy_map {γ : Type} (key : β → κ) (f : γ → β) (l : List γ) :
    lastBy key (l.map f) = (lastBy (key ∘ f) l).map f := by
  induction l with
  | nil => rfl
  | cons x l ih => simp [lastBy, ih, List.any_map]; split <;> simp

theorem lastBy_sublist (key : β → κ) (l : List β) : (lastBy key l).Sublist l := by
  induction l with
  | nil => exact List.Sublist.refl _
  | cons x l ih =>
    unfold lastBy
    split
    · exact ih.cons x
    · exact ih.cons_cons x

theorem lastBy_eq_nil_iff (key : β → κ) (l : List β) : lastBy key l = [] ↔ l = [] := by
  induction l using List.reverseRecOn with
  | nil => simp [lastBy]
  | append_singleton l x _ => simp [lastBy_append_singleton]

/-- The kept items of two lists: those of the first that no item of the second overrides, then
those of the second. -/
theorem lastBy_append (key : β → κ) (l l' : List β) :
    lastBy key (l ++ l') =
      (lastBy key l).filter (fun y => !l'.any fun z => key z == key y) ++ lastBy key l' := by
  induction l with
  | nil => rfl
  | cons x l ih =>
    simp only [List.cons_append, lastBy, List.any_append, ih]
    by_cases hl : l.any (fun z => key z == key x) = true
    · simp [hl]
    · by_cases hl' : l'.any (fun z => key z == key x) = true
      · simp [hl, hl']
      · simp [hl, hl']

/-- Putting a value under a key of a map whose keys are apart: the other entries, then the new
one, in another order. -/
theorem putEntry_perm (m : List (κ × α)) (k : κ) (v : α) (hm : (m.map Prod.fst).Nodup) :
    (putEntry m k v).Perm (m.filter (fun e => !(e.1 == k)) ++ [(k, v)]) := by
  unfold putEntry
  by_cases hk : k ∈ m.map Prod.fst
  · rw [if_pos ((any_key_eq_iff m k).2 hk)]
    -- induction on the entries: the one entry of key `k` is replaced in its place
    induction m with
    | nil => simp at hk
    | cons e m ih =>
      rw [List.map_cons, List.nodup_cons] at hm
      by_cases he : e.1 = k
      · subst he
        have hrest : (m.map fun x => if x.1 == e.1 then (x.1, v) else x) = m :=
          map_update_of_not_mem m e.1 (fun x => (x.1, v)) hm.1
        have hf : m.filter (fun x => !(x.1 == e.1)) = m := List.filter_eq_self.2 fun x hx => by
          have : x.1 ≠ e.1 := fun hxe => hm.1 (hxe ▸ List.mem_map_of_mem hx)
          simp [this]
        simp only [List.map_cons, beq_self_eq_true, if_true, hrest, List.filter_cons, hf,
          Bool.not_true, Bool.false_eq_true]
        exact (List.perm_append_singleton _ _).symm
      · have hk' : k ∈ m.map Prod.fst := by
          rcases List.mem_cons.1 hk with h | h
          · exact absurd h.symm he
          · exact h
        have hne : (e.1 == k) = false := beq_false_of_ne he
        simp only [List.map_cons, hne, Bool.false_eq_true, if_false, List.filter_cons,
          Bool.not_false, if_true, List.cons_append]
        exact (ih hm.2 hk').cons e
  · rw [if_neg (mt (any_key_eq_iff m k).1 hk)]
    have hf : m.filter (fun e => !(e.1 == k)) = m := List.filter_eq_self.2 fun e he => by
      have : e.1 ≠ k := fun hek => hk (hek ▸ List.mem_map_of_mem he)
      simp [this]
    rw [hf]

/-- **The entries of a map.** Put one by one, a list of entries leaves, in another order, the
entries that no later entry of the same key follows. -/
theorem putAll_perm_lastBy (l : List (κ × α)) : (putAll l).Perm (lastBy Prod.fst l) := by
  induction l using List.reverseRecOn with
  | nil => exact List.Perm.refl _
  | append_singleton l x ih =>
    rw [putAll_append_singleton, lastBy_append_singleton]
    exact (putEntry_perm _ _ _ (nodup_keys_putAll l)).trans
      ((ih.filter _).append_right [x])

theorem mem_of_mem_putAll {l : List (κ × α)} {e : κ × α} (he : e ∈ putAll l) : e ∈ l :=
  (lastBy_sublist Prod.fst l).subset ((putAll_perm_lastBy l).subset he)

theorem putAll_eq_nil_iff (l : List (κ × α)) : putAll l = [] ↔ l = [] := by
  rw [← lastBy_eq_nil_iff Prod.fst l, ← List.length_eq_zero_iff, ← List.length_eq_zero_iff,
    (putAll_perm_lastBy l).length_eq]

/-! ## Groups -/

@[simp] theorem groupAll_nil : groupAll ([] : List (Text × α)) = [] := rfl

theorem groupAll_append_singleton (l : List (Text × α)) (x : Text × α) :
    groupAll (l ++ [x]) = appendUnder (groupAll l) x.1 x.2 := by
  simp [groupAll, List.foldl_append]

theorem keys_groupAll (l : List (Text × α)) :
    (groupAll l).map Prod.fst = (l.map Prod.fst).eraseDups :=
  keys_foldl_eq_eraseDups (·.map Prod.fst) Prod.fst _ (fun m x => keys_appendUnder m x.1 x.2) l rfl

theorem nodup_keys_groupAll (l : List (Text × α)) : ((groupAll l).map Prod.fst).Nodup :=
  nodup_keys_foldl (·.map Prod.fst) Prod.fst _ (fun m x => keys_appendUnder m x.1 x.2) l
    List.nodup_nil

/-- Adding an item under a key of groups whose keys are apart puts it in one group. -/
theorem appendUnder_flatMap_perm (m : List (Text × List α)) (k : Text) (item : α)
    (hm : (m.map Prod.fst).Nodup) :
    ((appendUnder m k item).flatMap Prod.snd).Perm (m.flatMap Prod.snd ++ [item]) := by
  unfold appendUnder
  by_cases hk : k ∈ m.map Prod.fst
  · rw [if_pos ((any_key_eq_iff m k).2 hk)]
    -- induction on the groups: the item joins the one group of key `k`
    induction m with
    | nil => simp at hk
    | cons e m ih =>
      rw [List.map_cons, List.nodup_cons] at hm
      by_cases he : e.1 = k
      · subst he
        have hkeep : (m.map fun x => if x.1 == e.1 then (x.1, x.2 ++ [item]) else x) = m :=
          map_update_of_not_mem m e.1 (fun x => (x.1, x.2 ++ [item])) hm.1
        simp only [List.map_cons, beq_self_eq_true, if_true, hkeep, List.flatMap_cons,
          List.append_assoc]
        exact List.Perm.append_left e.2 List.perm_append_comm
      · have hk' : k ∈ m.map Prod.fst := by
          rcases List.mem_cons.1 hk with h | h
          · exact absurd h.symm he
          · exact h
        have hne : (e.1 == k) = false := beq_false_of_ne he
        simp only [List.map_cons, hne, Bool.false_eq_true, if_false, List.flatMap_cons,
          List.append_assoc]
        exact (ih hm.2 hk').append_left e.2
  · rw [if_neg (mt (any_key_eq_iff m k).1 hk)]
    simp

/-- No group is empty. -/
theorem groupAll_groups_ne_nil (l : List (Text × α)) : ∀ g ∈ groupAll l, g.2 ≠ [] := by
  induction l using List.reverseRecOn with
  | nil => simp
  | append_singleton l x ih =>
    rw [groupAll_append_singleton]
    intro g hg
    unfold appendUnder at hg
    split at hg
    · obtain ⟨e, he, rfl⟩ := List.mem_map.1 hg
      split
      · simp
      · exact ih e he
    · rcases List.mem_append.1 hg with hg | hg
      · exact ih g hg
      · simp [List.mem_singleton.1 hg]

theorem groupAll_eq_nil_iff (l : List (Text × α)) : groupAll l = [] ↔ l = [] := by
  induction l using List.reverseRecOn with
  | nil => simp
  | append_singleton l x _ =>
    simp only [groupAll_append_singleton, List.append_eq_nil_iff, List.cons_ne_nil, and_false,
      iff_false]
    intro h
    have hkeys := keys_appendUnder (groupAll l) x.1 x.2
    rw [h] at hkeys
    split at hkeys <;> simp_all

/-- **Every item in one group.** Grouped one by one, the items of a list stand, in another
order, each in exactly one group. -/
theorem groupAll_flatMap_perm (l : List (Text × α)) :
    ((groupAll l).flatMap Prod.snd).Perm (l.map Prod.snd) := by
  induction l using List.reverseRecOn with
  | nil => exact List.Perm.refl _
  | append_singleton l x ih =>
    rw [groupAll_append_singleton, List.map_append]
    exact (appendUnder_flatMap_perm _ _ _ (nodup_keys_groupAll l)).trans (ih.append_right _)

end Entries

end BlockPlan
