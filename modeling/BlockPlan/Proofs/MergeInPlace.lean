import Mathlib.Data.List.Find
import Mathlib.Data.List.Nodup
import Mathlib.Data.List.Pairwise
import BlockPlan.Proofs.AcyclicGraph
import BlockPlan.Proofs.DeepMerge

/-!
# Merging maps in place

`Graph.mergeInto` merges one map cell into another by changing cells: a key the base lacks, or
one whose values are not both maps, is put into the base map, and where both hold maps the merge
goes on in the base's own map. So only maps reached from the base through maps alone change, and
every place that holds one of them sees the change.

`Spine g i Sp Lo` says what a merge reads of a cell: `Sp` lists the maps reached from it through
maps alone, with repeats, each keyed by exact keys (`Value.exactKey`) no two of which are one key,
and `Lo` the containers that the other values they hold reach, none of them on a cycle. A base is
`Exclusive` when each of its spine maps is held once, and by no other value it reaches.

Main statement (`mergeInto_agree`): when the base is an exclusive spine, the later map a spine,
and no map of the base is reached from the later map, merging in place is the merge of values
`mergeEntries`: it fails exactly when that does, and otherwise the base holds the merged entries,
is a spine again of cells of the two, and only the base's own spine maps changed. The later map
may share its cells in any way. When the two are exclusive together, so is the merged base.

The proof follows the fold of `mergeInto` over the later map's entries. Each step either puts a
value under a key (`putEntry_stepped`) or merges one map of the base in place
(`mergeInto_stepped`). The invariant `MergeState` asks exclusivity only of the base entries whose
keys are still to come (`Pending`): the others may by then hold values of the later map.
-/

namespace BlockPlan

namespace Graph

variable {g g' : Graph}

/-! ## Exact keys and plain scalars -/

/-- Whether cell `k` is a scalar that maps compare exactly. -/
def exactKey (g : Graph) (k : Nat) : Bool :=
  match g.cells[k]? with
  | some (.scalar v) => v.exactKey
  | _ => false

theorem exactKey_iff {k : Nat} :
    g.exactKey k = true ↔ ∃ v, g.cells[k]? = some (.scalar v) ∧ v.exactKey = true := by
  unfold exactKey
  split <;> simp_all

theorem value_exactKey {k : Nat} (hk : g.exactKey k = true) : (g.value k).exactKey = true := by
  obtain ⟨v, hc, hv⟩ := exactKey_iff.1 hk
  rwa [value_of_scalar hc]

/-- Exact key cells are one key exactly when their values are equal as keys. -/
theorem sameKey_eq {k k' : Nat} (hk : g.exactKey k = true) (hk' : g.exactKey k' = true) :
    g.sameKey k k' = (g.value k).eqv (g.value k') := by
  obtain ⟨v, hc, hv⟩ := exactKey_iff.1 hk
  obtain ⟨v', hc', -⟩ := exactKey_iff.1 hk'
  rw [value_of_scalar hc, value_of_scalar hc']
  unfold sameKey
  rw [cell_of_getElem? hc, cell_of_getElem? hc']
  by_cases hkk : k = k'
  · subst hkk
    rw [hc] at hc'
    cases hc'
    simp [Value.eqv_self_of_exactKey hv]
  · simp [hkk]

theorem sameKey_comm {k k' : Nat} (hk : g.exactKey k = true) (hk' : g.exactKey k' = true) :
    g.sameKey k k' = g.sameKey k' k := by
  rw [sameKey_eq hk hk', sameKey_eq hk' hk, Value.eqv_comm_of_exactKey (value_exactKey hk)]

/-- Two exact keys that are one key with a third are one key. -/
theorem sameKey_of_sameKey {a b c : Nat} (ha : g.exactKey a = true) (hb : g.exactKey b = true)
    (hc : g.exactKey c = true) (hab : g.sameKey a b = true) (hcb : g.sameKey c b = true) :
    g.sameKey a c = true := by
  rw [sameKey_eq ha hb] at hab
  rw [sameKey_eq ha hc, Value.eqv_comm_of_exactKey (value_exactKey ha),
    Value.eqv_congr_of_exactKey (value_exactKey ha) (value_exactKey hb) hab, ← sameKey_eq hc hb, hcb]

/-- No scalar of the graph holds a map. -/
def ScalarsPlain (g : Graph) : Prop :=
  ∀ (j : Nat) (es : List (Value × Value)), g.cells[j]? ≠ some (Cell.scalar (.map es))

theorem entries_of_getElem? {m : Nat} {es : List (Nat × Nat)}
    (hc : g.cells[m]? = some (.map es)) : g.entries m = es := by
  simp [entries, cell_of_getElem? hc]

/-- The entries of a map cell as values. -/
abbrev pairValues (g : Graph) (es : List (Nat × Nat)) : List (Value × Value) :=
  es.map fun e => (g.value e.1, g.value e.2)

/-! ## Changes confined to containers -/

/-- `g'` differs from `g` only at cells of `X`, each a container in both. -/
structure Frame (g g' : Graph) (X : List Nat) : Prop where
  same : ∀ j, j ∉ X → g'.cells[j]? = g.cells[j]?
  before : ∀ j ∈ X, ∀ v, g.cells[j]? ≠ some (.scalar v)
  after : ∀ j ∈ X, ∀ v, g'.cells[j]? ≠ some (.scalar v)

theorem Frame.refl : Frame g g [] := ⟨fun _ _ => rfl, by simp, by simp⟩

theorem Frame.trans {g₁ g₂ : Graph} {X Y : List Nat} (h₁ : Frame g g₁ X) (h₂ : Frame g₁ g₂ Y) :
    Frame g g₂ (X ++ Y) where
  same j hj := by
    rw [List.mem_append, not_or] at hj
    rw [h₂.same j hj.2, h₁.same j hj.1]
  before j hj v := by
    by_cases hx : j ∈ X
    · exact h₁.before j hx v
    · rw [← h₁.same j hx]
      exact h₂.before j ((List.mem_append.1 hj).resolve_left hx) v
  after j hj v := by
    by_cases hy : j ∈ Y
    · exact h₂.after j hy v
    · rw [h₂.same j hy]
      exact h₁.after j ((List.mem_append.1 hj).resolve_right hy) v

/-- Putting a container in place of a container changes only that cell. -/
theorem Frame.put {m : Nat} {c : Cell} (hm : ∀ v, g.cells[m]? ≠ some (.scalar v))
    (hc : c.isScalar = false) : Frame g (g.put m c) [m] where
  same j hj := by
    have hne : m ≠ j := fun h => hj (h ▸ List.mem_singleton_self m)
    simp [Graph.put, hne]
  before j hj v := by
    obtain rfl := List.mem_singleton.1 hj
    exact hm v
  after j hj v := by
    obtain rfl := List.mem_singleton.1 hj
    rw [Graph.put, Array.getElem?_setIfInBounds, if_pos rfl]
    split
    · intro h
      cases h
      simp [Cell.isScalar] at hc
    · simp

variable {X : List Nat}

theorem Frame.scalar (h : Frame g g' X) {j : Nat} {v : Value}
    (hj : g.cells[j]? = some (.scalar v)) : g'.cells[j]? = some (.scalar v) := by
  have hx : j ∉ X := fun hx => h.before j hx v hj
  rw [h.same j hx, hj]

theorem Frame.exactKey (h : Frame g g' X) (k : Nat) : g'.exactKey k = g.exactKey k := by
  by_cases hk : k ∈ X
  · have hfalse : ∀ g₀ : Graph, (∀ v, g₀.cells[k]? ≠ some (.scalar v)) → g₀.exactKey k = false := by
      intro g₀ hg₀
      rw [Bool.eq_false_iff]
      intro hk'
      obtain ⟨v, hv, -⟩ := exactKey_iff.1 hk'
      exact hg₀ v hv
    rw [hfalse g' (h.after k hk), hfalse g (h.before k hk)]
  · unfold Graph.exactKey
    rw [h.same k hk]

theorem Agrees.mono {S S' : List Nat} (ha : Agrees g g' S) (hsub : S' ⊆ S) : Agrees g g' S' :=
  ⟨fun j hj => ha.owned j (hsub hj), ha.scalars⟩

theorem Agrees.exactKey {S : List Nat} (ha : Agrees g g' S) {k : Nat} (hk : g.exactKey k = true) :
    g'.exactKey k = true := by
  obtain ⟨v, hc, hv⟩ := exactKey_iff.1 hk
  exact exactKey_iff.2 ⟨v, ha.scalars k v hc, hv⟩

theorem Agrees.value_of_exactKey {S : List Nat} (ha : Agrees g g' S) {k : Nat}
    (hk : g.exactKey k = true) : g'.value k = g.value k := by
  obtain ⟨v, hc, -⟩ := exactKey_iff.1 hk
  rw [value_of_scalar hc, value_of_scalar (ha.scalars k v hc)]

/-- Graphs that agree on scalars compare exact keys alike. -/
theorem Agrees.sameKey {S : List Nat} (ha : Agrees g g' S) {k k' : Nat} (hk : g.exactKey k = true)
    (hk' : g.exactKey k' = true) : g'.sameKey k k' = g.sameKey k k' := by
  rw [sameKey_eq hk hk', sameKey_eq (ha.exactKey hk) (ha.exactKey hk'), ha.value_of_exactKey hk,
    ha.value_of_exactKey hk']

theorem Frame.agrees (h : Frame g g' X) {S : List Nat} (hS : ∀ j ∈ S, j ∉ X) : Agrees g g' S where
  owned j hj := h.same j (hS j hj)
  scalars _ _ hj := h.scalar hj

/-- A frame changes no scalar. -/
theorem Frame.agrees_nil (h : Frame g g' X) : Agrees g g' [] :=
  h.agrees fun _ hj => absurd hj List.not_mem_nil

theorem Frame.value_of_exactKey (h : Frame g g' X) {k : Nat} (hk : g.exactKey k = true) :
    g'.value k = g.value k :=
  h.agrees_nil.value_of_exactKey hk

theorem Frame.sameKey (h : Frame g g' X) {k k' : Nat} (hk : g.exactKey k = true)
    (hk' : g.exactKey k' = true) : g'.sameKey k k' = g.sameKey k k' :=
  h.agrees_nil.sameKey hk hk'

theorem Frame.scalars (h : Frame g g' X) (hs : ScalarsPlain g) : ScalarsPlain g' := by
  intro j es hj
  by_cases hx : j ∈ X
  · exact h.after j hx _ hj
  · rw [h.same j hx] at hj
    exact hs j es hj

/-! ## Spines -/

/-- Cell `i` and the maps reached from it through maps alone: `Sp` lists those maps, with
repeats, each keyed by exact keys no two of which are one key, and `Lo` the containers that the
other values they hold reach. No cycle can be reached. -/
inductive Spine (g : Graph) : Nat → List Nat → List Nat → Prop
  | leaf {i : Nat} {S : List Nat} : Dag g i S → g.isMap i = false → Spine g i [] S
  | map {i : Nat} {es : List (Nat × Nat)} (Sp Lo : Nat → List Nat) :
      g.cells[i]? = some (.map es) → (∀ e ∈ es, g.exactKey e.1 = true) →
      es.Pairwise (fun a c => g.sameKey a.1 c.1 = false) →
      (∀ e ∈ es, Spine g e.2 (Sp e.2) (Lo e.2)) → (∀ e ∈ es, i ∉ Sp e.2 ++ Lo e.2) →
      Spine g i (i :: es.flatMap fun e => Sp e.2) (es.flatMap fun e => Lo e.2)

namespace Spine

variable {i : Nat} {Sp Lo : List Nat}

theorem unique (h : Spine g i Sp Lo) {Sp' Lo' : List Nat} (h' : Spine g i Sp' Lo') :
    Sp' = Sp ∧ Lo' = Lo := by
  induction h generalizing Sp' Lo' with
  | leaf hd hm =>
    cases h' with
    | leaf hd' => exact ⟨rfl, hd.unique hd'⟩
    | map _ _ hc => simp [isMap, cell_of_getElem? hc] at hm
  | map Sp Lo hc _ _ _ _ ih =>
    cases h' with
    | leaf _ hm => simp [isMap, cell_of_getElem? hc] at hm
    | map Sp' Lo' hc' _ _ hvals' =>
      rw [hc] at hc'
      cases hc'
      constructor
      · rw [List.flatMap_congr fun e he => (ih e he (hvals' e he)).1]
      · rw [List.flatMap_congr fun e he => (ih e he (hvals' e he)).2]

/-- A spine reaches no cycle, and the containers it reaches are its maps and the others. -/
theorem dag (h : Spine g i Sp Lo) : ∃ S, Dag g i S ∧ S ⊆ Sp ++ Lo := by
  induction h with
  | leaf hd => exact ⟨_, hd, fun x hx => List.mem_append_right _ hx⟩
  | @map i es Sp Lo hc hkeys _ _ hout ih =>
    have hkid : ∀ j ∈ (Cell.map es).members,
        Dag g j (g.reach j) ∧ ∀ x ∈ g.reach j, x ∈ (es.flatMap fun e => Sp e.2) ++
          es.flatMap fun e => Lo e.2 := by
      intro j hj
      obtain ⟨e, he, hje⟩ := List.mem_flatMap.1 hj
      simp only [List.mem_cons, List.not_mem_nil, or_false] at hje
      rcases hje with rfl | rfl
      · obtain ⟨v, hv, -⟩ := exactKey_iff.1 (hkeys e he)
        have hd : Dag g e.1 [] := .scalar hv
        rw [hd.reach_eq]
        exact ⟨hd, by simp⟩
      · obtain ⟨S, hd, hsub⟩ := ih e he
        rw [hd.reach_eq]
        refine ⟨hd, fun x hx => ?_⟩
        rcases List.mem_append.1 (hsub hx) with h | h
        · exact List.mem_append_left _ (List.mem_flatMap.2 ⟨e, he, h⟩)
        · exact List.mem_append_right _ (List.mem_flatMap.2 ⟨e, he, h⟩)
    refine ⟨_, .node g.reach hc rfl (fun j hj => (hkid j hj).1) fun j hj hij => ?_, ?_⟩
    · obtain ⟨e, he, hje⟩ := List.mem_flatMap.1 hj
      simp only [List.mem_cons, List.not_mem_nil, or_false] at hje
      rcases hje with rfl | rfl
      · obtain ⟨v, hv, -⟩ := exactKey_iff.1 (hkeys e he)
        rw [(Dag.scalar hv).reach_eq] at hij
        cases hij
      · obtain ⟨S, hd, hsub⟩ := ih e he
        rw [hd.reach_eq] at hij
        exact hout e he (hsub hij)
    · intro x hx
      rcases List.mem_cons.1 hx with rfl | hx
      · exact List.mem_append_left _ List.mem_cons_self
      · obtain ⟨j, hj, hxj⟩ := List.mem_flatMap.1 (List.mem_dedup.1 hx)
        rcases List.mem_append.1 ((hkid j hj).2 x hxj) with h | h
        · exact List.mem_append_left _ (List.mem_cons_of_mem _ h)
        · exact List.mem_append_right _ h

theorem value_map (h : Spine g i Sp Lo) {es : List (Nat × Nat)}
    (hc : g.cells[i]? = some (.map es)) : g.value i = .map (g.pairValues es) := by
  obtain ⟨S, hd, -⟩ := h.dag
  exact hd.value_map hc

theorem mem_self (h : Spine g i Sp Lo) (hm : g.isMap i = true) : i ∈ Sp := by
  cases h with
  | leaf _ hm' => rw [hm] at hm'; cases hm'
  | map => exact List.mem_cons_self

/-- In a graph whose scalars hold no maps, a spine cell is a map exactly when its value is. -/
theorem isMap_iff (h : Spine g i Sp Lo) (hs : ScalarsPlain g) :
    g.isMap i = true ↔ ∃ xs, g.value i = .map xs := by
  cases h with
  | map Sp' Lo' hc hkeys hpair hvals hout =>
    have hv := (Spine.map Sp' Lo' hc hkeys hpair hvals hout).value_map hc
    exact ⟨fun _ => ⟨_, hv⟩, fun _ => by simp [isMap, cell_of_getElem? hc]⟩
  | @leaf _ S hd hm =>
    rw [hm]
    refine ⟨fun h => (Bool.false_ne_true h).elim, ?_⟩
    rintro ⟨xs, hxs⟩
    cases hd with
    | scalar hc =>
      rw [value_of_scalar hc] at hxs
      subst hxs
      exact absurd hc (hs i xs)
    | @node _ c _ hc hsc _ _ =>
      rw [value, tree_succ, cell_of_getElem? hc] at hxs
      cases c with
      | scalar => simp [Cell.isScalar] at hsc
      | map => simp [isMap, cell_of_getElem? hc] at hm
      | _ => cases hxs

theorem map_of_value (h : Spine g i Sp Lo) (hs : ScalarsPlain g) {xs : List (Value × Value)}
    (hv : g.value i = .map xs) : ∃ es, g.cells[i]? = some (.map es) := by
  have hmap := (h.isMap_iff hs).2 ⟨xs, hv⟩
  cases h with
  | map _ _ hc => exact ⟨_, hc⟩
  | leaf _ hm => rw [hm] at hmap; cases hmap

/-- A graph that agrees on a spine's containers and on scalars holds the same spine. -/
theorem agrees (h : Spine g i Sp Lo) (ha : Agrees g g' (Sp ++ Lo)) : Spine g' i Sp Lo := by
  induction h with
  | @leaf i S hd hm =>
    refine .leaf (hd.frame (ha.mono fun j hj => List.mem_append_right _ hj)) ?_
    cases hd with
    | scalar hc => simp [isMap, cell_of_getElem? (ha.scalars _ _ hc)]
    | node _ hc =>
      have hi := ha.owned i (List.mem_append_right _ List.mem_cons_self)
      simpa [isMap, cell, hi] using hm
  | @map i es Sp Lo hc hkeys hpair hvals hout ih =>
    have hi := ha.owned i (List.mem_append_left _ List.mem_cons_self)
    have hsub : ∀ e ∈ es, Sp e.2 ++ Lo e.2 ⊆
        (i :: es.flatMap fun e => Sp e.2) ++ es.flatMap fun e => Lo e.2 := by
      intro e he j hj
      rcases List.mem_append.1 hj with h | h
      · exact List.mem_append_left _ (List.mem_cons_of_mem _ (List.mem_flatMap.2 ⟨e, he, h⟩))
      · exact List.mem_append_right _ (List.mem_flatMap.2 ⟨e, he, h⟩)
    refine .map Sp Lo (hi.trans hc) (fun e he => ha.exactKey (hkeys e he)) ?_
      (fun e he => ih e he (ha.mono (hsub e he))) hout
    refine hpair.imp_of_mem fun ha' hb hab => ?_
    rw [ha.sameKey (hkeys _ ha') (hkeys _ hb)]
    exact hab

/-- A graph that agrees on a spine's containers and on scalars gives it the same value. -/
theorem value_agrees (h : Spine g i Sp Lo) (ha : Agrees g g' (Sp ++ Lo)) :
    g'.value i = g.value i := by
  obtain ⟨S, hd, hsub⟩ := h.dag
  exact hd.value_frame (ha.mono hsub)

end Spine

/-! ## Finding the spine of a cell -/

/-- The maps reached from cell `i` through maps alone, with repeats, and the containers reached
from the other values they hold; none when a map is keyed otherwise than by exact keys, each
once, or a cycle can be reached. `fuel` bounds the depth. -/
def spineCells (g : Graph) : Nat → Nat → Option (List Nat × List Nat)
  | 0, _ => none
  | fuel + 1, i =>
    match g.cells[i]? with
    | some (.map es) =>
      if (es.all fun e => g.exactKey e.1 &&
            (g.spineCells fuel e.2).any fun p => !(p.1 ++ p.2).contains i) &&
          decide (es.Pairwise fun a c => g.sameKey a.1 c.1 = false) then
        some (i :: es.flatMap (fun e => ((g.spineCells fuel e.2).getD ([], [])).1),
          es.flatMap fun e => ((g.spineCells fuel e.2).getD ([], [])).2)
      else none
    | _ => (g.dagCells (g.cells.size + 1) i).map fun S => ([], S)

theorem Spine.of_spineCells : ∀ (fuel i : Nat) (Sp Lo : List Nat),
    g.spineCells fuel i = some (Sp, Lo) → Spine g i Sp Lo := by
  intro fuel
  induction fuel with
  | zero => intro i Sp Lo h; simp [spineCells] at h
  | succ fuel ih =>
    intro i Sp Lo h
    unfold spineCells at h
    split at h
    · rename_i es hc
      split at h
      · rename_i hall
        cases h
        obtain ⟨hall, hpair⟩ := Bool.and_eq_true_iff.1 hall
        have hkid : ∀ e ∈ es, g.exactKey e.1 = true ∧
            ∃ p, g.spineCells fuel e.2 = some p ∧ i ∉ p.1 ++ p.2 := by
          intro e he
          obtain ⟨hk, hp⟩ := Bool.and_eq_true_iff.1 (List.all_eq_true.1 hall e he)
          refine ⟨hk, ?_⟩
          cases hq : g.spineCells fuel e.2 with
          | none => simp [hq] at hp
          | some p => exact ⟨p, rfl, by simpa [hq] using hp⟩
        refine .map (fun j => ((g.spineCells fuel j).getD ([], [])).1)
          (fun j => ((g.spineCells fuel j).getD ([], [])).2) hc (fun e he => (hkid e he).1)
          (of_decide_eq_true hpair) (fun e he => ?_) fun e he => ?_
        · obtain ⟨p, hp, -⟩ := (hkid e he).2
          exact ih e.2 _ _ (by simp [hp])
        · obtain ⟨p, hp, hip⟩ := (hkid e he).2
          simpa [hp] using hip
      · cases h
    · rename_i hnot
      obtain ⟨S, hS, hp⟩ := Option.map_eq_some_iff.1 h
      cases hp
      refine .leaf (Dag.of_dagCells _ i _ hS) ?_
      unfold isMap cell
      cases hc : g.cells[i]? with
      | none => rfl
      | some c =>
        cases c with
        | map es => exact absurd hc (hnot es)
        | _ => rfl

/-- `spineCells` finds the spine, given more fuel than the containers reached. -/
theorem Spine.spineCells_eq {i : Nat} {Sp Lo : List Nat} (h : Spine g i Sp Lo) :
    ∀ fuel, (g.reach i).length < fuel → g.spineCells fuel i = some (Sp, Lo) := by
  induction h with
  | @leaf i S hd hm =>
    intro fuel hfuel
    obtain ⟨f, rfl⟩ : ∃ f, fuel = f + 1 := ⟨fuel - 1, by omega⟩
    have hdc := hd.dagCells_eq _ (Nat.lt_succ_of_le hd.length_le)
    have hstep : g.spineCells (f + 1) i = (g.dagCells (g.cells.size + 1) i).map fun S => ([], S) := by
      unfold spineCells
      split
      · rename_i es hc
        simp [isMap, cell_of_getElem? hc] at hm
      · rfl
    rw [hstep, hdc]
    rfl
  | @map i es Sp Lo hc hkeys hpair hvals hout ih =>
    intro fuel hfuel
    obtain ⟨f, rfl⟩ : ∃ f, fuel = f + 1 := ⟨fuel - 1, by omega⟩
    obtain ⟨S, hd, -⟩ := (Spine.map Sp Lo hc hkeys hpair hvals hout).dag
    rw [hd.reach_eq] at hfuel
    have hkid : ∀ e ∈ es, g.spineCells f e.2 = some (Sp e.2, Lo e.2) := by
      intro e he
      obtain ⟨S', hd', hsub, hi⟩ := hd.member (j := e.2)
        (by rw [cell_of_getElem? hc]; exact List.mem_flatMap.2 ⟨e, he, by simp⟩)
      have hlt := hd.length_lt_of_member hd' hsub hi (by simp [cell_of_getElem? hc, Cell.isScalar])
      exact ih e he f (by rw [hd'.reach_eq]; omega)
    have hall : ((es.all fun e => g.exactKey e.1 &&
          (g.spineCells f e.2).any fun p => !(p.1 ++ p.2).contains i) &&
        decide (es.Pairwise fun a c => g.sameKey a.1 c.1 = false)) = true := by
      refine Bool.and_eq_true_iff.2 ⟨List.all_eq_true.2 fun e he => ?_, decide_eq_true hpair⟩
      have hi := hout e he
      simp only [List.mem_append, not_or] at hi
      simp [hkeys e he, hkid e he, hi.1, hi.2]
    have hmaps : (es.flatMap fun e => ((g.spineCells f e.2).getD ([], [])).1) =
        es.flatMap fun e => Sp e.2 :=
      List.flatMap_congr fun e he => by rw [hkid e he]; rfl
    have hleaves : (es.flatMap fun e => ((g.spineCells f e.2).getD ([], [])).2) =
        es.flatMap fun e => Lo e.2 :=
      List.flatMap_congr fun e he => by rw [hkid e he]; rfl
    simp only [spineCells, hc, if_pos hall, hmaps, hleaves]

/-- The spine of cell `i`: its maps reached through maps alone and the containers the other
values reach. -/
def spineOf (g : Graph) (i : Nat) : List Nat × List Nat :=
  (g.spineCells (g.cells.size + 1) i).getD ([], [])

/-- The maps reached from cell `i` through maps alone, with repeats. -/
def spineMaps (g : Graph) (i : Nat) : List Nat := (g.spineOf i).1

/-- The containers reached from the values other than maps that the spine maps of cell `i`
hold. -/
def leafCells (g : Graph) (i : Nat) : List Nat := (g.spineOf i).2

theorem Spine.canonical {i : Nat} {Sp Lo : List Nat} (h : Spine g i Sp Lo) :
    g.spineMaps i = Sp ∧ g.leafCells i = Lo := by
  obtain ⟨S, hd, -⟩ := h.dag
  have hcells := h.spineCells_eq _ (Nat.lt_succ_of_le (hd.reach_eq ▸ hd.length_le))
  simp [spineMaps, leafCells, spineOf, hcells]

/-- Whether cell `i` is a spine. -/
def IsSpine (g : Graph) (i : Nat) : Prop := Spine g i (g.spineMaps i) (g.leafCells i)

theorem Spine.isSpine {i : Nat} {Sp Lo : List Nat} (h : Spine g i Sp Lo) : g.IsSpine i := by
  obtain ⟨h₁, h₂⟩ := h.canonical
  unfold IsSpine
  rw [h₁, h₂]
  exact h

theorem isSpine_iff {i : Nat} : g.IsSpine i ↔ g.spineCells (g.cells.size + 1) i = some (g.spineOf i) := by
  constructor
  · intro h
    obtain ⟨S, hd, -⟩ := Spine.dag h
    exact h.spineCells_eq _ (Nat.lt_succ_of_le (hd.reach_eq ▸ hd.length_le))
  · intro h
    exact Spine.of_spineCells _ i _ _ h

instance (g : Graph) (i : Nat) : Decidable (g.IsSpine i) :=
  decidable_of_iff _ isSpine_iff.symm

/-! ## Spines in the form of their lists -/

theorem sameKey_self (k : Nat) : g.sameKey k k = true := by
  simp [sameKey]

/-- A map spine: its keys are exact and apart, its values spines not reaching it, and its lists
are those of its values, itself in front. -/
theorem Spine.eq_map {i : Nat} {Sp Lo : List Nat} (h : Spine g i Sp Lo) {es : List (Nat × Nat)}
    (hc : g.cells[i]? = some (.map es)) :
    Sp = i :: es.flatMap (fun e => g.spineMaps e.2) ∧ Lo = es.flatMap (fun e => g.leafCells e.2) ∧
      (∀ e ∈ es, g.exactKey e.1 = true) ∧ es.Pairwise (fun a c => g.sameKey a.1 c.1 = false) ∧
      (∀ e ∈ es, g.IsSpine e.2) ∧ ∀ e ∈ es, i ∉ g.spineMaps e.2 ++ g.leafCells e.2 := by
  cases h with
  | leaf _ hm => simp [isMap, cell_of_getElem? hc] at hm
  | map Sp Lo hc' hkeys hpair hvals hout =>
    rw [hc] at hc'
    cases hc'
    have hcan : ∀ e ∈ es, g.spineMaps e.2 = Sp e.2 ∧ g.leafCells e.2 = Lo e.2 :=
      fun e he => (hvals e he).canonical
    refine ⟨by rw [List.flatMap_congr fun e he => (hcan e he).1],
      by rw [List.flatMap_congr fun e he => (hcan e he).2], hkeys, hpair,
      fun e he => (hvals e he).isSpine, fun e he => ?_⟩
    rw [(hcan e he).1, (hcan e he).2]
    exact hout e he

/-- A map cell whose keys are exact and apart and whose values are spines not reaching it is a
spine. -/
theorem IsSpine.of_map {i : Nat} {es : List (Nat × Nat)} (hc : g.cells[i]? = some (.map es))
    (hkeys : ∀ e ∈ es, g.exactKey e.1 = true) (hpair : es.Pairwise fun a c => g.sameKey a.1 c.1 = false)
    (hvals : ∀ e ∈ es, g.IsSpine e.2) (hout : ∀ e ∈ es, i ∉ g.spineMaps e.2 ++ g.leafCells e.2) :
    g.IsSpine i ∧ g.spineMaps i = i :: es.flatMap (fun e => g.spineMaps e.2) ∧
      g.leafCells i = es.flatMap fun e => g.leafCells e.2 := by
  have h := Spine.map g.spineMaps g.leafCells hc hkeys hpair hvals hout
  exact ⟨h.isSpine, h.canonical⟩

/-- A spine that no changed cell belongs to keeps its lists and its value. -/
theorem IsSpine.kept {i : Nat} (h : g.IsSpine i) (hf : Frame g g' X)
    (hX : ∀ j ∈ g.spineMaps i ++ g.leafCells i, j ∉ X) :
    g'.IsSpine i ∧ g'.spineMaps i = g.spineMaps i ∧ g'.leafCells i = g.leafCells i ∧
      g'.value i = g.value i := by
  have h' := Spine.agrees h (hf.agrees hX)
  obtain ⟨h₁, h₂⟩ := h'.canonical
  exact ⟨h'.isSpine, h₁, h₂, Spine.value_agrees h (hf.agrees hX)⟩

/-- The entries of a map keyed apart are distinct. -/
theorem nodup_of_keysApart {es : List (Nat × Nat)}
    (hpair : es.Pairwise fun a c => g.sameKey a.1 c.1 = false) : es.Nodup :=
  hpair.imp fun hac heq => by
    subst heq
    rw [sameKey_self] at hac
    cases hac

/-- Among entries keyed apart by exact keys, at most one has a key that is one key with `k`. -/
theorem entry_unique {es : List (Nat × Nat)} {k : Nat} (hkeys : ∀ e ∈ es, g.exactKey e.1 = true)
    (hpair : es.Pairwise fun a c => g.sameKey a.1 c.1 = false) (hk : g.exactKey k = true)
    {e e' : Nat × Nat} (he : e ∈ es) (he' : e' ∈ es) (hke : g.sameKey k e.1 = true)
    (hke' : g.sameKey k e'.1 = true) : e = e' := by
  by_contra hne
  have hsymm : es.Pairwise fun a c => g.sameKey a.1 c.1 = false ∧ g.sameKey c.1 a.1 = false :=
    hpair.imp_of_mem fun ha hc hac =>
      ⟨hac, by rw [sameKey_comm (hkeys _ hc) (hkeys _ ha)]; exact hac⟩
  have : Std.Symm fun a c : Nat × Nat => g.sameKey a.1 c.1 = false ∧ g.sameKey c.1 a.1 = false :=
    ⟨fun _ _ h => ⟨h.2, h.1⟩⟩
  have hapart := (hsymm.forall he he' hne).1
  have hsame : g.sameKey e.1 e'.1 = true :=
    sameKey_of_sameKey (hkeys e he) hk (hkeys e' he')
      (by rw [sameKey_comm (hkeys e he) hk]; exact hke)
      (by rw [sameKey_comm (hkeys e' he') hk]; exact hke')
  rw [hapart] at hsame
  cases hsame

/-! ## Counting cells in lists of blocks -/

/-- Replacing the block of one entry, among distinct entries, changes the count of a cell by the
difference of the two blocks. -/
theorem count_flatMap_update {α : Type} [DecidableEq α] {es : List α} {e₀ : α} (hnd : es.Nodup)
    (he₀ : e₀ ∈ es) (f : α → List Nat) (T : List Nat) (x : Nat) :
    (es.flatMap fun e => if e = e₀ then T else f e).count x + (f e₀).count x =
      (es.flatMap f).count x + T.count x := by
  obtain ⟨s, t, rfl⟩ := List.append_of_mem he₀
  obtain ⟨-, ht, hst⟩ := List.nodup_append.1 hnd
  have hs : (s.flatMap fun e => if e = e₀ then T else f e) = s.flatMap f :=
    List.flatMap_congr fun e he => if_neg fun h => hst e he e₀ List.mem_cons_self h
  have ht : (t.flatMap fun e => if e = e₀ then T else f e) = t.flatMap f :=
    List.flatMap_congr fun e he => if_neg fun h => (List.nodup_cons.1 ht).1 (by subst h; exact he)
  simp only [List.flatMap_append, List.flatMap_cons, hs, ht, List.count_append, ↓reduceIte]
  omega

theorem count_le_count_flatMap {α : Type} {es : List α} {e : α} (he : e ∈ es) (f : α → List Nat)
    (x : Nat) : (f e).count x ≤ (es.flatMap f).count x := by
  obtain ⟨s, t, rfl⟩ := List.append_of_mem he
  simp only [List.flatMap_append, List.flatMap_cons, List.count_append]
  omega

theorem count_le_of_subset {T X : List Nat} (hT : T.Nodup) (hsub : T ⊆ X) (x : Nat) :
    T.count x ≤ X.count x := by
  by_cases hx : x ∈ T
  · rw [List.count_eq_one_of_mem hT hx]
    exact List.count_pos_iff.2 (hsub hx)
  · rw [List.count_eq_zero_of_not_mem hx]
    exact Nat.zero_le _

/-! ## Keys of map cells and keys of values -/

/-- Looking up an exact key in a map cell keyed by exact keys finds the cell of the value that
the key finds among the values of its entries. -/
theorem lookup_value {m k : Nat} {es : List (Nat × Nat)} (hc : g.cells[m]? = some (.map es))
    (hkeys : ∀ e ∈ es, g.exactKey e.1 = true) (hk : g.exactKey k = true) :
    (g.lookup m k).map g.value = lookupKey (g.pairValues es) (g.value k) := by
  unfold lookup lookupKey
  rw [entries_of_getElem? hc, List.find?_map, Option.map_map, Option.map_map]
  have hsame : ∀ e ∈ es, g.sameKey k e.1 = (g.value e.1).eqv (g.value k) := by
    intro e he
    rw [sameKey_eq hk (hkeys e he), Value.eqv_comm_of_exactKey (value_exactKey hk)]
  rw [List.find?_congr hsame]
  rfl

/-- The value cell that looking up a key finds is that of an entry with the key. -/
theorem lookup_eq_some {m k j : Nat} {es : List (Nat × Nat)} (hc : g.cells[m]? = some (.map es))
    (hj : g.lookup m k = some j) : ∃ e ∈ es, e.2 = j ∧ g.sameKey k e.1 = true := by
  unfold lookup at hj
  rw [entries_of_getElem? hc] at hj
  obtain ⟨e, he, rfl⟩ := Option.map_eq_some_iff.1 hj
  have hp := List.find?_some he
  exact ⟨e, List.mem_of_find?_eq_some he, rfl, hp⟩

/-- Putting a value under an exact key of entries keyed by exact keys, as values. -/
theorem insertEntry_eq {es : List (Nat × Nat)} {k : Nat} (w : Value)
    (hkeys : ∀ e ∈ es, g.exactKey e.1 = true) (hk : g.exactKey k = true) :
    Value.insertEntry (g.pairValues es) (g.value k) w =
      if es.any (fun e => g.sameKey k e.1) then
        es.map fun e => if g.sameKey k e.1 then (g.value e.1, w) else (g.value e.1, g.value e.2)
      else g.pairValues es ++ [(g.value k, w)] := by
  have hsame : ∀ e ∈ es, g.sameKey k e.1 = (g.value k).eqv (g.value e.1) :=
    fun e he => sameKey_eq hk (hkeys e he)
  unfold Value.insertEntry
  split
  · rename_i h
    have h' : (es.any fun e => g.sameKey k e.1) = true := by
      obtain ⟨_, hmem, hx⟩ := List.any_eq_true.1 h
      obtain ⟨e, he, rfl⟩ := List.mem_map.1 hmem
      exact List.any_eq_true.2 ⟨e, he, by rw [hsame e he]; exact hx⟩
    rw [if_pos h', List.map_map]
    refine List.map_congr_left fun e he => ?_
    simp only [Function.comp_apply, hsame e he]
  · rename_i h
    have h' : ¬(es.any fun e => g.sameKey k e.1) = true := by
      intro h'
      obtain ⟨e, he, hx⟩ := List.any_eq_true.1 h'
      refine h (List.any_eq_true.2 ⟨_, List.mem_map_of_mem he, ?_⟩)
      show (g.value k).eqv (g.value e.1) = true
      rw [← hsame e he]
      exact hx
    rw [if_neg h']

/-- Putting cell `v` under an exact key gives, as values, the entries' values with `v`'s put
under the key. -/
theorem pairValues_putKey {es : List (Nat × Nat)} {k v : Nat}
    (hkeys : ∀ e ∈ es, g.exactKey e.1 = true) (hk : g.exactKey k = true) :
    g.pairValues (Yaml.putKey g es k v) =
      Value.insertEntry (g.pairValues es) (g.value k) (g.value v) := by
  rw [insertEntry_eq _ hkeys hk]
  unfold Yaml.putKey
  split
  · rw [pairValues, List.map_map]
    refine List.map_congr_left fun e _ => ?_
    by_cases h : g.sameKey k e.1 = true <;> simp [h]
  · simp [pairValues]

/-- An entry after putting cell `v` under key `k`: the entry put, under `k` or under a key of
the entries that is one key with it, or an entry left as it was. -/
theorem mem_putKey {es : List (Nat × Nat)} {k v : Nat} {e : Nat × Nat}
    (he : e ∈ Yaml.putKey g es k v) :
    (e.2 = v ∧ (e.1 = k ∨ ∃ e₀ ∈ es, e₀.1 = e.1 ∧ g.sameKey k e₀.1 = true)) ∨
      (e ∈ es ∧ g.sameKey k e.1 = false) := by
  unfold Yaml.putKey at he
  split at he
  · obtain ⟨e₀, he₀, rfl⟩ := List.mem_map.1 he
    by_cases h : g.sameKey k e₀.1 = true
    · rw [if_pos h]
      exact .inl ⟨rfl, .inr ⟨e₀, he₀, rfl, h⟩⟩
    · rw [if_neg h]
      exact .inr ⟨he₀, Bool.eq_false_iff.2 h⟩
  · rename_i hany
    rcases List.mem_append.1 he with he | he
    · exact .inr ⟨he, Bool.eq_false_iff.2 fun h => hany (List.any_eq_true.2 ⟨e, he, h⟩)⟩
    · obtain rfl := List.mem_singleton.1 he
      exact .inl ⟨rfl, .inl rfl⟩

theorem flatMap_putKey_subset {es : List (Nat × Nat)} {k v : Nat} (f : Nat → List Nat) :
    ((Yaml.putKey g es k v).flatMap fun e => f e.2) ⊆ (es.flatMap fun e => f e.2) ++ f v := by
  intro x hx
  obtain ⟨e, he, hxe⟩ := List.mem_flatMap.1 hx
  rcases mem_putKey he with ⟨hev, -⟩ | ⟨he₀, -⟩
  · rw [hev] at hxe
    exact List.mem_append_right _ hxe
  · exact List.mem_append_left _ (List.mem_flatMap.2 ⟨e, he₀, hxe⟩)

theorem putKey_keys {es : List (Nat × Nat)} {k v : Nat} (hkeys : ∀ e ∈ es, g.exactKey e.1 = true)
    (hk : g.exactKey k = true) : ∀ e ∈ Yaml.putKey g es k v, g.exactKey e.1 = true := by
  intro e he
  rcases mem_putKey he with ⟨-, hek | ⟨e₀, he₀, hk₀, -⟩⟩ | ⟨he₀, -⟩
  · rw [hek]
    exact hk
  · rw [← hk₀]
    exact hkeys e₀ he₀
  · exact hkeys e he₀

/-- Putting a value under an exact key keeps the keys apart. -/
theorem putKey_keysApart {es : List (Nat × Nat)} {k v : Nat}
    (hkeys : ∀ e ∈ es, g.exactKey e.1 = true) (hk : g.exactKey k = true)
    (hpair : es.Pairwise fun a c => g.sameKey a.1 c.1 = false) :
    (Yaml.putKey g es k v).Pairwise fun a c => g.sameKey a.1 c.1 = false := by
  unfold Yaml.putKey
  split
  · refine List.pairwise_map.2 (hpair.imp fun {a c} h => ?_)
    by_cases ha : g.sameKey k a.1 = true <;> by_cases hc : g.sameKey k c.1 = true <;> simp [ha, hc, h]
  · rename_i hany
    refine List.pairwise_append.2 ⟨hpair, List.pairwise_singleton _ _, fun a ha c hc => ?_⟩
    obtain rfl := List.mem_singleton.1 hc
    rw [sameKey_comm (hkeys a ha) hk]
    exact Bool.eq_false_iff.2 fun h => hany (List.any_eq_true.2 ⟨a, ha, h⟩)

/-- Putting `v` under an exact key counts each cell of the values' blocks at most as often as the
entries and `v` did. -/
theorem count_flatMap_putKey {es : List (Nat × Nat)} {k v : Nat}
    (hkeys : ∀ e ∈ es, g.exactKey e.1 = true) (hk : g.exactKey k = true)
    (hpair : es.Pairwise fun a c => g.sameKey a.1 c.1 = false) (f : Nat → List Nat) (x : Nat) :
    ((Yaml.putKey g es k v).flatMap fun e => f e.2).count x ≤
      (es.flatMap fun e => f e.2).count x + (f v).count x := by
  unfold Yaml.putKey
  split
  · rename_i hany
    obtain ⟨e₀, he₀, hke₀⟩ := List.any_eq_true.1 hany
    have hblocks : ((es.map fun e => if g.sameKey k e.1 then (e.1, v) else e).flatMap
        fun e => f e.2) = es.flatMap fun e => if e = e₀ then f v else f e.2 := by
      rw [List.flatMap_map]
      refine List.flatMap_congr fun e he => ?_
      by_cases h : g.sameKey k e.1 = true
      · rw [if_pos h, if_pos (entry_unique hkeys hpair hk he he₀ h hke₀)]
      · rw [if_neg h, if_neg fun h' => h (by rw [h']; exact hke₀)]
    have hcount := count_flatMap_update (nodup_of_keysApart hpair) he₀ (fun e => f e.2) (f v) x
    rw [hblocks]
    omega
  · simp [List.flatMap_append, List.count_append]

theorem nodup_of_count_le {l l' : List Nat} (h : l'.Nodup) (hc : ∀ x, l.count x ≤ l'.count x) :
    l.Nodup :=
  List.nodup_iff_count_le_one.2 fun x => (hc x).trans (List.nodup_iff_count_le_one.1 h x)

/-- A list that holds each cell at most as often as one held once and apart from `SL` is held
once too, and apart from any part of `SL`. -/
theorem nodup_disjoint_of_count_le {S T SL TL : List Nat} (h : S.Nodup ∧ S.Disjoint SL)
    (hcount : ∀ x, T.count x ≤ S.count x) (hsub : TL ⊆ SL) : T.Nodup ∧ T.Disjoint TL := by
  refine ⟨nodup_of_count_le h.1 hcount, fun x hx hx' => h.2 ?_ (hsub hx')⟩
  exact List.count_pos_iff.1 ((List.count_pos_iff.2 hx).trans_le (hcount x))

/-- A list drawn from `A` and `W`, followed by `R`, is drawn from `A` and then `W ++ R`. -/
theorem append_subset_append_of_subset {A A' W R : List Nat} (h : A' ⊆ A ++ W) :
    A' ++ R ⊆ A ++ (W ++ R) := by
  intro x hx
  rcases List.mem_append.1 hx with hx | hx
  · rcases List.mem_append.1 (h hx) with h' | h'
    · exact List.mem_append_left _ h'
    · exact List.mem_append_right _ (List.mem_append_left _ h')
  · exact List.mem_append_right _ (List.mem_append_right _ hx)

/-- One step of a merge keeps map cell `b` and the entries `R` still to come held once and
apart: the base's spine maps `F` and other cells `L` become `F'` and `L'`, drawn from those and
from the lists `V` and `W` of the entry merged. -/
theorem exclusive_step {b : Nat} {F F' V R L L' W RL : List Nat}
    (h : ((b :: F) ++ (V ++ R)).Nodup ∧ ((b :: F) ++ (V ++ R)).Disjoint (L ++ (W ++ RL)))
    (hcount : ∀ x, F'.count x ≤ F.count x + V.count x) (hsub : L' ⊆ L ++ W) :
    ((b :: F') ++ R).Nodup ∧ ((b :: F') ++ R).Disjoint (L' ++ RL) := by
  refine nodup_disjoint_of_count_le h (fun x => ?_) (append_subset_append_of_subset hsub)
  have hx := hcount x
  simp only [List.cons_append, List.count_cons, List.count_append]
  omega

/-- The blocks of a flat map where the block of `e₀` became `T`, drawn from that block and `V`. -/
theorem flatMap_update_subset {α : Type} [DecidableEq α] {es : List α} {e₀ : α} (he₀ : e₀ ∈ es)
    (f : α → List Nat) {T V : List Nat} (hT : T ⊆ f e₀ ++ V) :
    (es.flatMap fun e => if e = e₀ then T else f e) ⊆ es.flatMap f ++ V := by
  intro x hx
  obtain ⟨e, he, hxe⟩ := List.mem_flatMap.1 hx
  by_cases hne : e = e₀
  · rw [if_pos hne] at hxe
    rcases List.mem_append.1 (hT hxe) with h | h
    · exact List.mem_append_left _ (List.mem_flatMap.2 ⟨e₀, he₀, h⟩)
    · exact List.mem_append_right _ h
  · rw [if_neg hne] at hxe
    exact List.mem_append_left _ (List.mem_flatMap.2 ⟨e, he, hxe⟩)

/-! ## The merge, one entry at a time -/

/-- The spine maps of cell `i` are each held once, and by no other value it reaches. -/
def Exclusive (g : Graph) (i : Nat) : Prop :=
  (g.spineMaps i).Nodup ∧ (g.spineMaps i).Disjoint (g.leafCells i)

instance (g : Graph) (i : Nat) : Decidable (g.Exclusive i) :=
  decidable_of_iff ((g.spineMaps i).Nodup ∧ ∀ x ∈ g.spineMaps i, x ∉ g.leafCells i)
    (and_congr_right fun _ => ⟨fun h _ ha hb => h _ ha hb, fun h _ ha hb => h ha hb⟩)

/-- A base entry whose key is still to come: its spine maps are exclusive, may change, and are
reached from no other entry of base `b` nor from the entries `rest` still to come. -/
structure Pending (g : Graph) (b : Nat) (Z : List Nat) (rest : List (Nat × Nat)) (e : Nat × Nat) :
    Prop where
  exclusive : g.Exclusive e.2
  changing : g.spineMaps e.2 ⊆ Z
  others : ∀ e' ∈ g.entries b, e' ≠ e →
    (g.spineMaps e.2).Disjoint (g.spineMaps e'.2 ++ g.leafCells e'.2)
  later : ∀ r ∈ rest, (g.spineMaps e.2).Disjoint (g.spineMaps r.2 ++ g.leafCells r.2)

/-- One entry of the later map merged into map cell `base`, as `mergeInto` does it. -/
def mergeStep (fuel base : Nat) (g : Graph) (e : Nat × Nat) : Option Graph :=
  match g.lookup base e.1 with
  | some earlier =>
    if g.isMap earlier && g.isMap e.2 then g.mergeInto fuel earlier e.2
    else some (g.putEntry base e.1 e.2)
  | none => some (g.putEntry base e.1 e.2)

theorem mergeInto_succ (fuel base later : Nat) :
    g.mergeInto (fuel + 1) base later = (g.entries later).foldlM (mergeStep fuel base) g := rfl

/-- How far a merge into map cell `b` has come, with the entries `rest` still to merge: `b` is a
spine map; the entries to come have exact keys, each once, and spines for values, none reaching
`b`; the base entries under their keys are pending; only cells among `Z` may change; no scalar
holds a map; and under `P` the spine maps of the base and of the entries to come are held once,
by nothing else these reach. -/
structure MergeState (g : Graph) (b : Nat) (Z : List Nat) (rest : List (Nat × Nat)) (P : Prop) :
    Prop where
  base : g.IsSpine b
  baseMap : ∃ es, g.cells[b]? = some (.map es)
  changing : b ∈ Z
  keys : ∀ e ∈ rest, g.exactKey e.1 = true
  keysApart : rest.Pairwise fun a c => g.sameKey a.1 c.1 = false
  values : ∀ e ∈ rest, g.IsSpine e.2
  valuesApart : ∀ e ∈ rest, b ∉ g.spineMaps e.2 ++ g.leafCells e.2
  pending : ∀ e ∈ g.entries b, (∃ r ∈ rest, g.sameKey r.1 e.1 = true) → Pending g b Z rest e
  scalars : ScalarsPlain g
  strong : P → (g.spineMaps b ++ rest.flatMap fun e => g.spineMaps e.2).Nodup ∧
    (g.spineMaps b ++ rest.flatMap fun e => g.spineMaps e.2).Disjoint
      (g.leafCells b ++ rest.flatMap fun e => g.leafCells e.2)

variable {b k v : Nat} {Z : List Nat} {rest : List (Nat × Nat)} {P : Prop}

/-- The entries still to come keep their spines and values when only cells they do not reach
change. -/
theorem MergeState.rest_kept (hs : MergeState g b Z ((k, v) :: rest) P) {g₁ : Graph}
    {Y : List Nat} (hf : Frame g g₁ Y)
    (hY : ∀ r ∈ rest, ∀ j ∈ g.spineMaps r.2 ++ g.leafCells r.2, j ∉ Y) :
    ∀ r ∈ rest, g₁.IsSpine r.2 ∧ g₁.spineMaps r.2 = g.spineMaps r.2 ∧
      g₁.leafCells r.2 = g.leafCells r.2 ∧ g₁.value r.1 = g.value r.1 ∧ g₁.value r.2 = g.value r.2 := by
  intro r hr
  have hr' := List.mem_cons_of_mem (k, v) hr
  obtain ⟨h₁, h₂, h₃, h₄⟩ := (hs.values r hr').kept hf (hY r hr)
  exact ⟨h₁, h₂, h₃, hf.value_of_exactKey (hs.keys r hr'), h₄⟩

/-- The state after one entry: a graph changed only at cells the entries left do not reach,
where the base is again a spine map whose pending entries are as the state asks. -/
theorem MergeState.next (hs : MergeState g b Z ((k, v) :: rest) P) {g₁ : Graph} {Y : List Nat}
    (hf : Frame g g₁ Y) (hY : ∀ r ∈ rest, ∀ j ∈ g.spineMaps r.2 ++ g.leafCells r.2, j ∉ Y)
    (hb : g₁.IsSpine b) (hmap : ∃ es, g₁.cells[b]? = some (.map es))
    (hpending : ∀ e ∈ g₁.entries b, (∃ r ∈ rest, g₁.sameKey r.1 e.1 = true) →
      Pending g₁ b Z rest e)
    (hstrong : P → (g₁.spineMaps b ++ rest.flatMap fun e => g.spineMaps e.2).Nodup ∧
      (g₁.spineMaps b ++ rest.flatMap fun e => g.spineMaps e.2).Disjoint
        (g₁.leafCells b ++ rest.flatMap fun e => g.leafCells e.2)) :
    MergeState g₁ b Z rest P := by
  have hkept := hs.rest_kept hf hY
  have hmaps : (rest.flatMap fun e => g₁.spineMaps e.2) = rest.flatMap fun e => g.spineMaps e.2 :=
    List.flatMap_congr fun r hr => (hkept r hr).2.1
  have hleaves : (rest.flatMap fun e => g₁.leafCells e.2) = rest.flatMap fun e => g.leafCells e.2 :=
    List.flatMap_congr fun r hr => (hkept r hr).2.2.1
  refine ⟨hb, hmap, hs.changing, fun r hr => ?_, ?_, fun r hr => (hkept r hr).1, fun r hr => ?_,
    hpending, hf.scalars hs.scalars, by rw [hmaps, hleaves]; exact hstrong⟩
  · rw [hf.exactKey]
    exact hs.keys r (List.mem_cons_of_mem _ hr)
  · refine (List.pairwise_cons.1 hs.keysApart).2.imp_of_mem fun ha hc hac => ?_
    rw [hf.sameKey (hs.keys _ (List.mem_cons_of_mem _ ha)) (hs.keys _ (List.mem_cons_of_mem _ hc))]
    exact hac
  · rw [(hkept r hr).2.1, (hkept r hr).2.2.1]
    exact hs.valuesApart r (List.mem_cons_of_mem _ hr)

/-- A base entry under the next key is pending, and one under a later key is not that entry. -/
theorem MergeState.not_head (hs : MergeState g b Z ((k, v) :: rest) P) {r : Nat × Nat}
    (hr : r ∈ rest) {c : Nat} (hc : g.exactKey c = true) (hrc : g.sameKey r.1 c = true) :
    g.sameKey k c = false := by
  have hk := hs.keys (k, v) List.mem_cons_self
  have hrk := hs.keys r (List.mem_cons_of_mem _ hr)
  rw [Bool.eq_false_iff]
  intro hkc
  have hkr := sameKey_of_sameKey hk hc hrk hkc hrc
  rw [(List.pairwise_cons.1 hs.keysApart).1 r hr] at hkr
  cases hkr

/-- A pending entry stays pending when it keeps its lists, the entries to come keep theirs,
and every other entry of the base reaches only what another entry or the merged value `v`
reached. -/
theorem Pending.next {g₁ : Graph} {e : Nat × Nat} (hold : Pending g b Z ((k, v) :: rest) e)
    (hsm : g₁.spineMaps e.2 = g.spineMaps e.2) (hlo : g₁.leafCells e.2 = g.leafCells e.2)
    (hothers : ∀ e' ∈ g₁.entries b, e' ≠ e → ∀ x ∈ g₁.spineMaps e'.2 ++ g₁.leafCells e'.2,
      (∃ e'' ∈ g.entries b, e'' ≠ e ∧ x ∈ g.spineMaps e''.2 ++ g.leafCells e''.2) ∨
        x ∈ g.spineMaps v ++ g.leafCells v)
    (hrest : ∀ r ∈ rest, g₁.spineMaps r.2 = g.spineMaps r.2 ∧ g₁.leafCells r.2 = g.leafCells r.2) :
    Pending g₁ b Z rest e := by
  refine ⟨?_, ?_, fun e' he' hne x hx hx' => ?_, fun r hr => ?_⟩
  · unfold Exclusive
    rw [hsm, hlo]
    exact hold.exclusive
  · rw [hsm]
    exact hold.changing
  · rw [hsm] at hx
    rcases hothers e' he' hne x hx' with ⟨e'', he'', hne'', h⟩ | h
    · exact hold.others e'' he'' hne'' hx h
    · exact hold.later (k, v) List.mem_cons_self hx h
  · rw [hsm, (hrest r hr).1, (hrest r hr).2]
    exact hold.later r (List.mem_cons_of_mem _ hr)

/-- One entry merged into map cell `b`: the merge goes on with the entries left, the base holds
`B` and its lists grew by at most those of the entry's value, and only cells among `Z` that the
entries left do not reach changed. -/
structure Stepped (g g₁ : Graph) (b : Nat) (Z : List Nat) (v : Nat) (rest : List (Nat × Nat))
    (P : Prop) (B : List (Value × Value)) : Prop where
  state : MergeState g₁ b Z rest P
  maps : g₁.spineMaps b ⊆ g.spineMaps b ++ g.spineMaps v
  leaves : g₁.leafCells b ⊆ g.leafCells b ++ g.leafCells v
  value : g₁.value b = .map B
  frame : ∃ Y ⊆ Z, Frame g g₁ Y ∧ ∀ r ∈ rest, ∀ j ∈ g.spineMaps r.2 ++ g.leafCells r.2, j ∉ Y

/-- **Putting an entry.** Putting the next entry under its key, in place of the value of the
same key or at the end, leaves the base a spine that holds the later value under the key. -/
theorem putEntry_stepped (hs : MergeState g b Z ((k, v) :: rest) P) {es : List (Nat × Nat)}
    (hc : g.cells[b]? = some (.map es)) :
    Stepped g (g.putEntry b k v) b Z v rest P
      (Value.insertEntry (g.pairValues es) (g.value k) (g.value v)) := by
  obtain ⟨hSm, hLo, hkeys, hpair, hvals, hout⟩ := Spine.eq_map hs.base hc
  have hk := hs.keys (k, v) List.mem_cons_self
  have hbv := hs.valuesApart (k, v) List.mem_cons_self
  set es' := Yaml.putKey g es k v
  have hput : g.putEntry b k v = g.put b (.map es') := by
    simp only [putEntry, entries_of_getElem? hc, es', Yaml.putKey]
    split <;> rfl
  rw [hput]
  have hf : Frame g (g.put b (.map es')) [b] :=
    Frame.put (fun w h => by rw [hc] at h; cases h) rfl
  have hnotb : ∀ {S : List Nat}, b ∉ S → ∀ j ∈ S, j ∉ [b] := fun hbS j hj hjb =>
    hbS (List.mem_singleton.1 hjb ▸ hj)
  -- every value of the new entries is the later value or one of the base's, kept as it was
  have hval : ∀ e ∈ es', (g.put b (.map es')).IsSpine e.2 ∧
      (g.put b (.map es')).spineMaps e.2 = g.spineMaps e.2 ∧
      (g.put b (.map es')).leafCells e.2 = g.leafCells e.2 ∧
      (g.put b (.map es')).value e.2 = g.value e.2 ∧
      b ∉ g.spineMaps e.2 ++ g.leafCells e.2 ∧ (e.2 = v ∨ e ∈ es) := by
    intro e he
    have hpart : b ∉ g.spineMaps e.2 ++ g.leafCells e.2 ∧ g.IsSpine e.2 ∧ (e.2 = v ∨ e ∈ es) := by
      rcases mem_putKey he with ⟨hev, -⟩ | ⟨he₀, -⟩
      · rw [hev]
        exact ⟨hbv, hs.values (k, v) List.mem_cons_self, .inl rfl⟩
      · exact ⟨hout e he₀, hvals e he₀, .inr he₀⟩
    obtain ⟨h₁, h₂, h₃, h₄⟩ := hpart.2.1.kept hf (hnotb hpart.1)
    exact ⟨h₁, h₂, h₃, h₄, hpart.1, hpart.2.2⟩
  have hkeys' : ∀ e ∈ es', g.exactKey e.1 = true := putKey_keys hkeys hk
  have hcell : (g.put b (.map es')).cells[b]? = some (.map es') := by
    have hlt : b < g.cells.size := (Array.getElem?_eq_some_iff.1 hc).1
    simp [Graph.put, hlt]
  obtain ⟨hbase, hSm₁, hLo₁⟩ := IsSpine.of_map hcell (fun e he => hf.exactKey e.1 ▸ hkeys' e he)
    ((putKey_keysApart hkeys hk hpair).imp_of_mem fun ha hc' hac => by
      rw [hf.sameKey (hkeys' _ ha) (hkeys' _ hc')]
      exact hac)
    (fun e he => (hval e he).1)
    (fun e he => by rw [(hval e he).2.1, (hval e he).2.2.1]; exact (hval e he).2.2.2.2.1)
  rw [List.flatMap_congr fun e he => (hval e he).2.1] at hSm₁
  rw [List.flatMap_congr fun e he => (hval e he).2.2.1] at hLo₁
  obtain ⟨hrestk, -⟩ := List.pairwise_cons.1 hs.keysApart
  have hY : ∀ r ∈ rest, ∀ j ∈ g.spineMaps r.2 ++ g.leafCells r.2, j ∉ [b] := fun r hr =>
    hnotb (hs.valuesApart r (List.mem_cons_of_mem _ hr))
  have hkept := hs.rest_kept hf hY
  have hsub : (es'.flatMap fun e => g.spineMaps e.2) ⊆ (es.flatMap fun e => g.spineMaps e.2) ++
      g.spineMaps v :=
    flatMap_putKey_subset g.spineMaps
  refine ⟨hs.next hf hY hbase ⟨es', hcell⟩ ?_ ?_, ?_, ?_, ?_, ⟨[b], ?_, hf, hY⟩⟩
  · -- the entries pending after this one are base entries left as they were
    rw [entries_of_getElem? hcell]
    rintro e he ⟨r, hr, hre⟩
    have hr' := List.mem_cons_of_mem (k, v) hr
    rw [hf.sameKey (hs.keys r hr') (hkeys' e he)] at hre
    obtain ⟨he₀, -⟩ : e ∈ es ∧ g.sameKey k e.1 = false := by
      rcases mem_putKey he with ⟨-, hek | ⟨e₀, he₀, hk₀, hke₀⟩⟩ | hleft
      · rw [hek, ← sameKey_comm hk (hs.keys r hr'), hrestk r hr] at hre
        cases hre
      · rw [← hk₀] at hre
        rw [hs.not_head hr (hkeys e₀ he₀) hre] at hke₀
        cases hke₀
      · exact hleft
    have hold := hs.pending e (by rw [entries_of_getElem? hc]; exact he₀) ⟨r, hr', hre⟩
    refine hold.next (hval e he).2.1 (hval e he).2.2.1 (fun e' he' hne x hx => ?_)
      fun r' hr'' => ⟨(hkept r' hr'').2.1, (hkept r' hr'').2.2.1⟩
    rw [entries_of_getElem? hcell] at he'
    rw [(hval e' he').2.1, (hval e' he').2.2.1] at hx
    rcases (hval e' he').2.2.2.2.2 with hev | he'₀
    · rw [hev] at hx
      exact .inr hx
    · exact .inl ⟨e', by rw [entries_of_getElem? hc]; exact he'₀, hne, hx⟩
  · -- the base's lists lose the block of the entry replaced and gain the later value's
    intro hP
    have hstrong := hs.strong hP
    rw [hSm, hLo, List.flatMap_cons, List.flatMap_cons] at hstrong
    rw [hSm₁, hLo₁]
    exact exclusive_step hstrong (count_flatMap_putKey hkeys hk hpair g.spineMaps)
      (flatMap_putKey_subset g.leafCells)
  · rw [hSm₁, hSm]
    exact List.cons_subset_cons b hsub
  · rw [hLo₁, hLo]
    exact flatMap_putKey_subset g.leafCells
  · rw [Spine.value_map hbase hcell, ← pairValues_putKey hkeys hk]
    congr 1
    refine List.map_congr_left fun e he => ?_
    rw [hf.value_of_exactKey (hkeys' e he), (hval e he).2.2.2.1]
  · intro j hj
    rw [List.mem_singleton.1 hj]
    exact hs.changing

/-! ## Merging a map of the base in place -/

/-- Map cells `b` and `l` can be merged in place: both are spines, `b`'s spine maps are held
once, by nothing else `b` reaches and by nothing `l` reaches, and no scalar holds a map; under
`P` the spine maps of both are held once, by nothing else either reaches. -/
structure Mergeable (g : Graph) (b l : Nat) (P : Prop) : Prop where
  base : g.IsSpine b
  later : g.IsSpine l
  exclusive : (g.spineMaps b).Nodup
  apart : (g.spineMaps b).Disjoint (g.leafCells b ++ g.spineMaps l ++ g.leafCells l)
  scalars : ScalarsPlain g
  strong : P → (g.spineMaps b ++ g.spineMaps l).Nodup ∧
    (g.spineMaps b ++ g.spineMaps l).Disjoint (g.leafCells b ++ g.leafCells l)

/-- What merging into map cell `b` leaves from `g`: `b` is a spine whose maps lie among `Xs` and
whose other containers among `Xl`, and holds the merged entries `M`; only cells among `Z`
changed; under `P` the merged base is exclusive. -/
structure Merged (g g' : Graph) (b : Nat) (Xs Xl Z : List Nat) (P : Prop)
    (M : List (Value × Value)) : Prop where
  spine : g'.IsSpine b
  maps : g'.spineMaps b ⊆ Xs
  leaves : g'.leafCells b ⊆ Xl
  value : g'.value b = .map M
  frame : ∃ Y ⊆ Z, Frame g g' Y
  exclusive : P → g'.Exclusive b

/-- How the merge of values and the merge in place agree: both fail, or both succeed and leave
what `Merged` says. -/
def Agree (g : Graph) (b : Nat) (Xs Xl Z : List Nat) (P : Prop) :
    Option (List (Value × Value)) → Option Graph → Prop
  | none, none => True
  | some M, some g' => Merged g g' b Xs Xl Z P M
  | _, _ => False

/-- Merging in place with fuel `fuel` agrees with merging values. -/
def MergeSpec (fuel : Nat) : Prop :=
  ∀ (g : Graph) (b l : Nat) (B L : List (Value × Value)) (P : Prop), Mergeable g b l P →
    g.value b = .map B → g.value l = .map L →
    Agree g b (g.spineMaps b ++ g.spineMaps l) (g.leafCells b ++ g.leafCells l) (g.spineMaps b) P
      (mergeEntries fuel B L) (g.mergeInto fuel b l)

/-- How a step of the merge of values and a step in place agree. -/
def StepAgree (g : Graph) (b : Nat) (Z : List Nat) (v : Nat) (rest : List (Nat × Nat))
    (P : Prop) : Option (List (Value × Value)) → Option Graph → Prop
  | none, none => True
  | some B, some g₁ => Stepped g g₁ b Z v rest P B
  | _, _ => False

/-- The entry that looking up the next key finds, with its value a map, can be merged with the
next value in place. -/
theorem MergeState.mergeable (hs : MergeState g b Z ((k, v) :: rest) P) {es : List (Nat × Nat)}
    (hc : g.cells[b]? = some (.map es)) {e₀ : Nat × Nat} (he₀ : e₀ ∈ es)
    (hp : Pending g b Z ((k, v) :: rest) e₀) : Mergeable g e₀.2 v P := by
  obtain ⟨hSm, hLo, -, -, hvals, -⟩ := Spine.eq_map hs.base hc
  have hpv := hp.later (k, v) List.mem_cons_self
  refine ⟨hvals e₀ he₀, hs.values (k, v) List.mem_cons_self, hp.exclusive.1, ?_, hs.scalars,
    fun hP => ?_⟩
  · rw [List.append_assoc]
    exact List.disjoint_append_right.2 ⟨hp.exclusive.2, hpv⟩
  · have hstrong := hs.strong hP
    rw [hSm, hLo, List.flatMap_cons, List.flatMap_cons] at hstrong
    refine nodup_disjoint_of_count_le hstrong (fun x => ?_) (fun x hx => ?_)
    · have hblock := count_le_count_flatMap he₀ (fun e => g.spineMaps e.2) x
      simp only [List.cons_append, List.count_cons, List.count_append] at hblock ⊢
      omega
    · rcases List.mem_append.1 hx with h | h
      · exact List.mem_append_left _ (List.mem_flatMap.2 ⟨e₀, he₀, h⟩)
      · exact List.mem_append_right _ (List.mem_append_left _ h)

/-- **Merging under a key in place.** Where the base and the next entry both hold maps under a
key, merging the entry's map into the base's own map agrees with merging their values. -/
theorem mergeInto_stepped {fuel : Nat} (ih : MergeSpec fuel)
    (hs : MergeState g b Z ((k, v) :: rest) P) {es : List (Nat × Nat)}
    (hc : g.cells[b]? = some (.map es)) {earlier : Nat} (hj : g.lookup b k = some earlier)
    {xs ys : List (Value × Value)} (hxs : g.value earlier = .map xs) (hys : g.value v = .map ys) :
    StepAgree g b Z v rest P
      ((mergeEntries fuel xs ys).map fun M =>
        Value.insertEntry (g.pairValues es) (g.value k) (.map M))
      (g.mergeInto fuel earlier v) := by
  obtain ⟨hSm, hLo, hkeys, hpair, hvals, hout⟩ := Spine.eq_map hs.base hc
  obtain ⟨e₀, he₀, rfl, hke₀⟩ := lookup_eq_some hc hj
  have hk := hs.keys (k, v) List.mem_cons_self
  have hbv := hs.valuesApart (k, v) List.mem_cons_self
  have hp : Pending g b Z ((k, v) :: rest) e₀ :=
    hs.pending e₀ (by rw [entries_of_getElem? hc]; exact he₀) ⟨(k, v), List.mem_cons_self, hke₀⟩
  have hagree := ih g e₀.2 v xs ys P (hs.mergeable hc he₀ hp) hxs hys
  cases hm : mergeEntries fuel xs ys <;> cases hg : g.mergeInto fuel e₀.2 v <;>
    rw [hm, hg] at hagree <;> simp only [Agree] at hagree
  · trivial
  rename_i M' g₁
  obtain ⟨hsp', hmaps', hleaves', hval', ⟨Y, hYsub, hf⟩, hex'⟩ := hagree
  have hbY : b ∉ Y := fun hb => hout e₀ he₀ (List.mem_append_left _ (hYsub hb))
  have hcell1 : g₁.cells[b]? = some (.map es) := (hf.same b hbY).trans hc
  -- the other entries of the base and the entries to come reach no changed cell
  have hYe : ∀ e ∈ es, e ≠ e₀ → ∀ j ∈ g.spineMaps e.2 ++ g.leafCells e.2, j ∉ Y :=
    fun e he hne j hj hjY =>
      hp.others e (by rw [entries_of_getElem? hc]; exact he) hne (hYsub hjY) hj
  have hYr : ∀ r ∈ rest, ∀ j ∈ g.spineMaps r.2 ++ g.leafCells r.2, j ∉ Y :=
    fun r hr j hj hjY => hp.later r (List.mem_cons_of_mem _ hr) (hYsub hjY) hj
  have hkept : ∀ e ∈ es, e ≠ e₀ → g₁.IsSpine e.2 ∧ g₁.spineMaps e.2 = g.spineMaps e.2 ∧
      g₁.leafCells e.2 = g.leafCells e.2 ∧ g₁.value e.2 = g.value e.2 :=
    fun e he hne => (hvals e he).kept hf (hYe e he hne)
  have hkeys1 : ∀ e ∈ es, g₁.exactKey e.1 = true := fun e he => hf.exactKey e.1 ▸ hkeys e he
  -- the merged entry reaches cells of the two merged maps only
  have hreach : ∀ x ∈ g₁.spineMaps e₀.2 ++ g₁.leafCells e₀.2,
      x ∈ g.spineMaps e₀.2 ++ g.leafCells e₀.2 ∨ x ∈ g.spineMaps v ++ g.leafCells v := by
    intro x hx
    rcases List.mem_append.1 hx with h | h
    · rcases List.mem_append.1 (hmaps' h) with h | h
      · exact .inl (List.mem_append_left _ h)
      · exact .inr (List.mem_append_left _ h)
    · rcases List.mem_append.1 (hleaves' h) with h | h
      · exact .inl (List.mem_append_right _ h)
      · exact .inr (List.mem_append_right _ h)
  obtain ⟨hbase, hSm₁, hLo₁⟩ := IsSpine.of_map hcell1 hkeys1
    (hpair.imp_of_mem fun ha hc' hac => by rw [hf.sameKey (hkeys _ ha) (hkeys _ hc')]; exact hac)
    (fun e he => by
      by_cases hne : e = e₀
      · rw [hne]
        exact hsp'
      · exact (hkept e he hne).1)
    (fun e he hb => by
      by_cases hne : e = e₀
      · rw [hne] at hb
        rcases hreach b hb with h | h
        · exact hout e₀ he₀ h
        · exact hbv h
      · rw [(hkept e he hne).2.1, (hkept e he hne).2.2.1] at hb
        exact hout e he hb)
  have hblocks : ∀ f : Graph → Nat → List Nat, (∀ e ∈ es, e ≠ e₀ → f g₁ e.2 = f g e.2) →
      (es.flatMap fun e => f g₁ e.2) = es.flatMap fun e => if e = e₀ then f g₁ e₀.2 else f g e.2 :=
    fun f hf' => List.flatMap_congr fun e he => by
      by_cases hne : e = e₀
      · rw [if_pos hne, hne]
      · rw [if_neg hne, hf' e he hne]
  rw [hblocks spineMaps fun e he hne => (hkept e he hne).2.1] at hSm₁
  rw [hblocks leafCells fun e he hne => (hkept e he hne).2.2.1] at hLo₁
  have hsame : ∀ e ∈ es, g.sameKey k e.1 = true ↔ e = e₀ := fun e he =>
    ⟨fun h => entry_unique hkeys hpair hk he he₀ h hke₀, fun h => h ▸ hke₀⟩
  have hsub := flatMap_update_subset he₀ (fun e => g.spineMaps e.2) hmaps'
  refine ⟨hs.next hf hYr hbase ⟨es, hcell1⟩ ?_ ?_, ?_, ?_, ?_, ⟨Y, fun j hj => hp.changing (hYsub hj), hf, hYr⟩⟩
  · -- the entries pending after this one are the others, left as they were
    rw [entries_of_getElem? hcell1]
    rintro e he ⟨r, hr, hre⟩
    have hr' := List.mem_cons_of_mem (k, v) hr
    rw [hf.sameKey (hs.keys r hr') (hkeys e he)] at hre
    have hne : e ≠ e₀ := fun h => by
      rw [h] at hre
      rw [hs.not_head hr (hkeys e₀ he₀) hre] at hke₀
      cases hke₀
    have hold := hs.pending e (by rw [entries_of_getElem? hc]; exact he) ⟨r, hr', hre⟩
    refine hold.next (hkept e he hne).2.1 (hkept e he hne).2.2.1 (fun e' he' hne' x hx => ?_)
      fun r' hr'' => ⟨(hs.rest_kept hf hYr r' hr'').2.1, (hs.rest_kept hf hYr r' hr'').2.2.1⟩
    rw [entries_of_getElem? hcell1] at he'
    have he'g : e' ∈ g.entries b := by rw [entries_of_getElem? hc]; exact he'
    by_cases he'₀ : e' = e₀
    · subst he'₀
      exact (hreach x hx).imp_left fun h => ⟨e', he'g, hne', h⟩
    · rw [(hkept e' he' he'₀).2.1, (hkept e' he' he'₀).2.2.1] at hx
      exact .inl ⟨e', he'g, hne', hx⟩
  · -- the merged entry's block holds each cell at most as often as the two merged maps did
    intro hP
    have hstrong := hs.strong hP
    rw [hSm, hLo, List.flatMap_cons, List.flatMap_cons] at hstrong
    dsimp only at hstrong
    rw [hSm₁, hLo₁]
    refine exclusive_step hstrong (fun x => ?_) (flatMap_update_subset he₀ _ hleaves')
    have hupdate := count_flatMap_update (nodup_of_keysApart hpair) he₀
      (fun e => g.spineMaps e.2) (g₁.spineMaps e₀.2) x
    have hT := count_le_of_subset (hex' hP).1 hmaps' x
    rw [List.count_append] at hT
    omega
  · rw [hSm₁, hSm]
    exact List.cons_subset_cons b hsub
  · rw [hLo₁, hLo]
    exact flatMap_update_subset he₀ _ hleaves'
  · show g₁.value b = .map (Value.insertEntry (g.pairValues es) (g.value k) (.map M'))
    rw [Spine.value_map hbase hcell1, insertEntry_eq _ hkeys hk,
      if_pos (List.any_eq_true.2 ⟨e₀, he₀, hke₀⟩)]
    congr 1
    refine List.map_congr_left fun e he => ?_
    rw [hf.value_of_exactKey (hkeys e he)]
    by_cases hne : e = e₀
    · rw [if_pos ((hsame e he).2 hne), hne, hval']
    · rw [if_neg fun h => hne ((hsame e he).1 h), (hkept e he hne).2.2.2]

/-! ## The whole merge -/

/-- **One entry.** A step of the merge in place agrees with a step of the merge of values. -/
theorem mergeStep_agree {fuel : Nat} (ih : MergeSpec fuel)
    (hs : MergeState g b Z ((k, v) :: rest) P) {B : List (Value × Value)}
    (hB : g.value b = .map B) :
    StepAgree g b Z v rest P (mergeEntry fuel B (g.value k, g.value v))
      (mergeStep fuel b g (k, v)) := by
  obtain ⟨es, hc⟩ := hs.baseMap
  obtain ⟨-, -, hkeys, -, hvals, -⟩ := Spine.eq_map hs.base hc
  have hBes : B = g.pairValues es := by
    rw [Spine.value_map hs.base hc] at hB
    exact (Value.map.inj hB).symm
  subst hBes
  have hv := hs.values (k, v) List.mem_cons_self
  have hlookup := lookup_value hc hkeys (hs.keys (k, v) List.mem_cons_self)
  unfold mergeStep
  cases hj : g.lookup b k with
  | none =>
    have hnone : lookupKey (g.pairValues es) (g.value k) = none := by
      rw [← hlookup, hj]
      rfl
    have hstep : mergeEntry fuel (g.pairValues es) (g.value k, g.value v) =
        some (Value.insertEntry (g.pairValues es) (g.value k) (g.value v)) := by
      simp only [mergeEntry, hnone]
    rw [hstep]
    exact putEntry_stepped hs hc
  | some earlier =>
    have hsome : lookupKey (g.pairValues es) (g.value k) = some (g.value earlier) := by
      rw [← hlookup, hj]
      rfl
    obtain ⟨e₀, he₀, he₀j, -⟩ := lookup_eq_some hc hj
    have he : g.IsSpine earlier := he₀j ▸ hvals e₀ he₀
    dsimp only
    by_cases hmaps : (g.isMap earlier && g.isMap v) = true
    · -- both maps: the merge goes on in the base's own map
      rw [if_pos hmaps]
      obtain ⟨h₁, h₂⟩ := Bool.and_eq_true_iff.1 hmaps
      obtain ⟨xs, hxs⟩ := (Spine.isMap_iff he hs.scalars).1 h₁
      obtain ⟨ys, hys⟩ := (Spine.isMap_iff hv hs.scalars).1 h₂
      have hstep : mergeEntry fuel (g.pairValues es) (g.value k, g.value v) =
          (mergeEntries fuel xs ys).map fun m =>
            Value.insertEntry (g.pairValues es) (g.value k) (.map m) := by
        simp only [mergeEntry, hsome, hxs, hys]
      rw [hstep]
      exact mergeInto_stepped ih hs hc hj hxs hys
    · rw [if_neg hmaps]
      have hstep : mergeEntry fuel (g.pairValues es) (g.value k, g.value v) =
          some (Value.insertEntry (g.pairValues es) (g.value k) (g.value v)) := by
        unfold mergeEntry
        split
        · rename_i xs ys hxs hys
          rw [hsome] at hxs
          exact absurd (Bool.and_eq_true_iff.2
            ⟨(Spine.isMap_iff he hs.scalars).2 ⟨xs, Option.some.inj hxs⟩,
              (Spine.isMap_iff hv hs.scalars).2 ⟨ys, hys⟩⟩) hmaps
        · rfl
      rw [hstep]
      exact putEntry_stepped hs hc

/-- Larger bounds on the merged base's lists allow the same. -/
theorem Agree.mono {Xs Xl Xs' Xl' : List Nat} {r : Option (List (Value × Value))}
    {o : Option Graph} (h : Agree g b Xs Xl Z P r o) (hs : Xs ⊆ Xs') (hl : Xl ⊆ Xl') :
    Agree g b Xs' Xl' Z P r o := by
  cases r <;> cases o <;> simp only [Agree] at h ⊢
  obtain ⟨hsp, hm, hlv, hv, hf, hex⟩ := h
  exact ⟨hsp, fun x hx => hs (hm hx), fun x hx => hl (hlv hx), hv, hf, hex⟩

/-- **The fold.** Merging the entries `rest` in place, one after another, agrees with merging
their values. -/
theorem mergeFold {fuel : Nat} (ih : MergeSpec fuel) :
    ∀ (rest : List (Nat × Nat)) (g : Graph) (B : List (Value × Value)),
      MergeState g b Z rest P → g.value b = .map B →
      Agree g b (g.spineMaps b ++ rest.flatMap fun e => g.spineMaps e.2)
        (g.leafCells b ++ rest.flatMap fun e => g.leafCells e.2) Z P
        (mergeEntries (fuel + 1) B (g.pairValues rest)) (rest.foldlM (mergeStep fuel b) g)
  | [], g, B, hs, hB => by
    simp only [pairValues, List.map_nil, mergeEntries_succ, List.foldlM_nil, List.flatMap_nil,
      List.append_nil]
    refine ⟨hs.base, List.Subset.refl _, List.Subset.refl _, hB, ⟨[], List.nil_subset _, Frame.refl⟩,
      fun hP => ?_⟩
    have h := hs.strong hP
    simp only [List.flatMap_nil, List.append_nil] at h
    exact h
  | (k, v) :: rest, g, B, hs, hB => by
    have hstep := mergeStep_agree ih hs hB
    rw [show g.pairValues ((k, v) :: rest) = (g.value k, g.value v) :: g.pairValues rest from rfl,
      mergeEntries_succ, List.foldlM_cons, List.foldlM_cons]
    cases hm : mergeEntry fuel B (g.value k, g.value v) <;>
      cases hg : mergeStep fuel b g (k, v) <;> rw [hm, hg] at hstep <;>
      simp only [StepAgree] at hstep
    · trivial
    rename_i B' g₁
    obtain ⟨hs₁, hmaps₁, hleaves₁, hval₁, ⟨Y, hY, hf, hYr⟩⟩ := hstep
    -- the entries still to come are as they were
    have hkept := hs.rest_kept hf hYr
    have hvals : g₁.pairValues rest = g.pairValues rest :=
      List.map_congr_left fun e he => by rw [(hkept e he).2.2.2.1, (hkept e he).2.2.2.2]
    have hmaps : (rest.flatMap fun e => g₁.spineMaps e.2) = rest.flatMap fun e => g.spineMaps e.2 :=
      List.flatMap_congr fun e he => (hkept e he).2.1
    have hleaves : (rest.flatMap fun e => g₁.leafCells e.2) =
        rest.flatMap fun e => g.leafCells e.2 :=
      List.flatMap_congr fun e he => (hkept e he).2.2.1
    have ih' := mergeFold ih rest g₁ B' hs₁ hval₁
    rw [hvals, hmaps, hleaves] at ih'
    show Agree g b _ _ Z P (mergeEntries (fuel + 1) B' (g.pairValues rest))
      (rest.foldlM (mergeStep fuel b) g₁)
    cases hM : mergeEntries (fuel + 1) B' (g.pairValues rest) <;>
      cases hG : rest.foldlM (mergeStep fuel b) g₁ <;> rw [hM, hG] at ih' <;>
      simp only [Agree] at ih' ⊢
    obtain ⟨hsp', hm', hl', hv', ⟨Y', hY', hf'⟩, hex'⟩ := ih'
    refine ⟨hsp', fun x hx => ?_, fun x hx => ?_, hv',
      ⟨Y ++ Y', List.append_subset.2 ⟨hY, hY'⟩, hf.trans hf'⟩, hex'⟩
    · rw [List.flatMap_cons]
      exact append_subset_append_of_subset hmaps₁ (hm' hx)
    · rw [List.flatMap_cons]
      exact append_subset_append_of_subset hleaves₁ (hl' hx)

theorem mergeSpec_succ {fuel : Nat} (ih : MergeSpec fuel) : MergeSpec (fuel + 1) := by
  intro g b l B L P h hB hL
  obtain ⟨esl, hcl⟩ := Spine.map_of_value h.later h.scalars hL
  obtain ⟨esb, hcb⟩ := Spine.map_of_value h.base h.scalars hB
  obtain ⟨hSl, hLl, hkl, hpl, hvl, -⟩ := Spine.eq_map h.later hcl
  obtain ⟨hSb, hLb, -, -, -, -⟩ := Spine.eq_map h.base hcb
  have hLes : L = g.pairValues esl := by
    rw [Spine.value_map h.later hcl] at hL
    exact (Value.map.inj hL).symm
  have hb : b ∈ g.spineMaps b := by
    rw [hSb]
    exact List.mem_cons_self
  -- the later entries reach cells of the later map, the base entries cells of the base
  have hrest : ∀ r ∈ esl, ∀ x ∈ g.spineMaps r.2 ++ g.leafCells r.2,
      x ∈ g.leafCells b ++ g.spineMaps l ++ g.leafCells l := by
    intro r hr x hx
    rcases List.mem_append.1 hx with h | h
    · exact List.mem_append_left _ (List.mem_append_right _
        (hSl ▸ List.mem_cons_of_mem _ (List.mem_flatMap.2 ⟨r, hr, h⟩)))
    · exact List.mem_append_right _ (hLl ▸ List.mem_flatMap.2 ⟨r, hr, h⟩)
  have hbaseSm : ∀ e ∈ esb, g.spineMaps e.2 ⊆ g.spineMaps b := fun e he x hx =>
    hSb ▸ List.mem_cons_of_mem _ (List.mem_flatMap.2 ⟨e, he, hx⟩)
  have hbaseLo : ∀ e ∈ esb, g.leafCells e.2 ⊆ g.leafCells b := fun e he x hx =>
    hLb ▸ List.mem_flatMap.2 ⟨e, he, hx⟩
  have hnd := h.exclusive
  rw [hSb] at hnd
  obtain ⟨hblocks, hpairwise⟩ := List.nodup_flatMap.1 (List.nodup_cons.1 hnd).2
  have : Std.Symm (Function.onFun List.Disjoint fun e : Nat × Nat => g.spineMaps e.2) :=
    ⟨fun _ _ h _ ha hb => h hb ha⟩
  have hstate : MergeState g b (g.spineMaps b) esl P :=
    { base := h.base
      baseMap := ⟨esb, hcb⟩
      changing := hb
      keys := hkl
      keysApart := hpl
      values := hvl
      valuesApart := fun r hr hbr => h.apart hb (hrest r hr b hbr)
      pending := fun e he _ => by
        rw [entries_of_getElem? hcb] at he
        refine ⟨⟨hblocks e he, fun x hx hx' =>
            h.apart (hbaseSm e he hx) (List.mem_append_left _ (List.mem_append_left _
              (hbaseLo e he hx')))⟩, hbaseSm e he, fun e' he' hne x hx hx' => ?_,
          fun r hr x hx hx' => h.apart (hbaseSm e he hx) (hrest r hr x hx')⟩
        rw [entries_of_getElem? hcb] at he'
        rcases List.mem_append.1 hx' with h' | h'
        · exact hpairwise.forall he he' (Ne.symm hne) hx h'
        · exact h.apart (hbaseSm e he hx)
            (List.mem_append_left _ (List.mem_append_left _ (hbaseLo e' he' h')))
      scalars := h.scalars
      strong := fun hP => by
        obtain ⟨hnd', hdis⟩ := h.strong hP
        rw [hSl] at hnd' hdis
        rw [hLl] at hdis
        refine ⟨hnd'.sublist (List.Sublist.append_left (List.sublist_cons_self _ _) _),
          List.disjoint_of_subset_left (fun x hx => ?_) hdis⟩
        rcases List.mem_append.1 hx with h' | h'
        · exact List.mem_append_left _ h'
        · exact List.mem_append_right _ (List.mem_cons_of_mem _ h') }
  rw [mergeInto_succ, entries_of_getElem? hcl, hLes]
  refine (mergeFold ih esl g B hstate hB).mono (fun x hx => ?_) (fun x hx => ?_)
  · rcases List.mem_append.1 hx with h | h
    · exact List.mem_append_left _ h
    · exact List.mem_append_right _ (hSl ▸ List.mem_cons_of_mem _ h)
  · rcases List.mem_append.1 hx with h | h
    · exact List.mem_append_left _ h
    · exact List.mem_append_right _ (hLl ▸ h)

theorem mergeSpec : ∀ fuel, MergeSpec fuel
  | 0 => fun _ _ _ _ _ _ _ _ _ => trivial
  | fuel + 1 => mergeSpec_succ (mergeSpec fuel)

/-- **Merging in place is merging values.** When map cell `b` is a spine whose maps are held
once, by nothing else it reaches and by nothing `l` reaches, and `l` is a spine, in a graph whose
scalars hold no maps, `mergeInto` fails exactly when `mergeEntries` does on their values;
otherwise `b` is again a spine, of cells of the two, that holds the merged entries, only `b`'s
spine maps changed, and under `P` the merged base is exclusive. -/
theorem mergeInto_agree (fuel : Nat) {b l : Nat} {P : Prop} (h : Mergeable g b l P)
    {B L : List (Value × Value)} (hB : g.value b = .map B) (hL : g.value l = .map L) :
    Agree g b (g.spineMaps b ++ g.spineMaps l) (g.leafCells b ++ g.leafCells l) (g.spineMaps b) P
      (mergeEntries fuel B L) (g.mergeInto fuel b l) :=
  mergeSpec fuel g b l B L P h hB hL

end Graph

end BlockPlan
