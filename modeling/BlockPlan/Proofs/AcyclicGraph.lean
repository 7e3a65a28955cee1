import Mathlib.Data.List.Dedup
import BlockPlan.Value.Graph

/-!
# Graphs without cycles

A document is read into a graph in which a container may stand in many places, as an anchor and
its aliases hold it, though a document without aliases to its own enclosing containers holds no
container inside itself. `Graph.Dag g i S` says that no cycle can be reached from cell `i`, with
`S` the containers reached, each listed once.

The value of such a cell is its plain unfolding `Graph.tree`, which does not depend on the depth
of unfolding once that exceeds the number of containers (`Dag.tree_eq`). It is read only through
the containers and scalars reached, so a graph that agrees there gives the same value
(`Dag.value_frame`). Main statement (`Dag.term_eq`): `Graph.term`, which knots cycles and shares
the values of cells without cycles, gives such a cell its plain unfolding.
-/

namespace BlockPlan

/-- Whether a cell is a scalar rather than a container. -/
def Cell.isScalar : Cell → Bool
  | .scalar _ => true
  | _ => false

namespace Graph

/-- No cycle can be reached from cell `i`, and `S` lists the containers reached, each once. -/
inductive Dag (g : Graph) : Nat → List Nat → Prop
  | scalar {i : Nat} {v : Value} : g.cells[i]? = some (.scalar v) → Dag g i []
  | node {i : Nat} {c : Cell} (S : Nat → List Nat) : g.cells[i]? = some c → c.isScalar = false →
      (∀ j ∈ c.members, Dag g j (S j)) → (∀ j ∈ c.members, i ∉ S j) →
      Dag g i (i :: (c.members.flatMap S).dedup)

/-- The value of cell `i` unfolded `fuel` levels deep; below that, null. -/
def tree (g : Graph) : Nat → Nat → Value
  | 0, _ => .null
  | fuel + 1, i =>
    match g.cell i with
    | .scalar v => v
    | .list xs => .list (xs.map (g.tree fuel))
    | .tuple xs => .tuple (xs.map (g.tree fuel))
    | .set xs => .set (xs.map (g.tree fuel))
    | .map es => .map (es.map fun e => (g.tree fuel e.1, g.tree fuel e.2))

/-- Two graphs agree on the containers `S` and on every scalar of the first. -/
structure Agrees (g g' : Graph) (S : List Nat) : Prop where
  owned : ∀ j ∈ S, g'.cells[j]? = g.cells[j]?
  scalars : ∀ (j : Nat) (v : Value), g.cells[j]? = some (Cell.scalar v) →
    g'.cells[j]? = some (Cell.scalar v)

variable {g g' : Graph}

theorem cell_of_getElem? {i : Nat} {c : Cell} (h : g.cells[i]? = some c) : g.cell i = c := by
  simp [cell, h]

theorem tree_succ (fuel i : Nat) :
    g.tree (fuel + 1) i =
      match g.cell i with
      | .scalar v => v
      | .list xs => .list (xs.map (g.tree fuel))
      | .tuple xs => .tuple (xs.map (g.tree fuel))
      | .set xs => .set (xs.map (g.tree fuel))
      | .map es => .map (es.map fun e => (g.tree fuel e.1, g.tree fuel e.2)) := rfl

/-- Cells whose members unfold alike unfold alike. -/
theorem tree_congr {f f' : Nat} {i : Nat} {c : Cell} (hc : g.cell i = c) (hc' : g'.cell i = c)
    (hkids : ∀ j ∈ c.members, g'.tree f' j = g.tree f j) :
    g'.tree (f' + 1) i = g.tree (f + 1) i := by
  rw [tree_succ, tree_succ, hc, hc']
  cases c with
  | scalar v => rfl
  | list xs =>
    simp only [Cell.members] at hkids
    dsimp only
    rw [List.map_congr_left hkids]
  | tuple xs =>
    simp only [Cell.members] at hkids
    dsimp only
    rw [List.map_congr_left hkids]
  | set xs =>
    simp only [Cell.members] at hkids
    dsimp only
    rw [List.map_congr_left hkids]
  | map es =>
    dsimp only
    congr 1
    apply List.map_congr_left
    intro e he
    have hk : e.1 ∈ (Cell.map es).members := List.mem_flatMap.2 ⟨e, he, by simp⟩
    have hv : e.2 ∈ (Cell.map es).members := List.mem_flatMap.2 ⟨e, he, by simp⟩
    rw [hkids e.1 hk, hkids e.2 hv]

namespace Dag

variable {i : Nat} {S : List Nat}

/-- The containers a member reaches are among those its container reaches. -/
theorem subset_of_member {S : Nat → List Nat} {members : List Nat} {j : Nat}
    (hj : j ∈ members) : S j ⊆ (members.flatMap S).dedup :=
  fun _ hx => List.mem_dedup.2 (List.mem_flatMap.2 ⟨j, hj, hx⟩)

theorem container (h : Dag g i S) : ∀ j ∈ S, ∃ c, g.cells[j]? = some c ∧ c.isScalar = false := by
  induction h with
  | scalar => simp
  | node S hc hscalar _ _ ih =>
    intro j hj
    rcases List.mem_cons.1 hj with rfl | hj
    · exact ⟨_, hc, hscalar⟩
    · obtain ⟨m, hm, hjm⟩ := List.mem_flatMap.1 (List.mem_dedup.1 hj)
      exact ih m hm j hjm

/-- A cell reaches one list of containers. -/
theorem unique (h : Dag g i S) {S' : List Nat} (h' : Dag g i S') : S' = S := by
  induction h generalizing S' with
  | scalar hc =>
    cases h' with
    | scalar => rfl
    | node S hc' hscalar =>
      rw [hc] at hc'
      cases hc'
      simp [Cell.isScalar] at hscalar
  | node S hc hscalar _ _ ih =>
    cases h' with
    | scalar hc' =>
      rw [hc] at hc'
      cases hc'
      simp [Cell.isScalar] at hscalar
    | node S' hc' _ hkids' _ =>
      rw [hc] at hc'
      cases hc'
      rw [List.flatMap_congr fun m hm => ih m hm (hkids' m hm)]

theorem nodup (h : Dag g i S) : S.Nodup := by
  cases h with
  | scalar => exact List.nodup_nil
  | node S _ _ _ hout =>
    refine List.nodup_cons.2 ⟨fun hi => ?_, List.nodup_dedup _⟩
    obtain ⟨j, hj, hij⟩ := List.mem_flatMap.1 (List.mem_dedup.1 hi)
    exact hout j hj hij

theorem length_le (h : Dag g i S) : S.length ≤ g.cells.size := by
  have hsub : S ⊆ List.range g.cells.size := by
    intro j hj
    obtain ⟨c, hc, -⟩ := h.container j hj
    exact List.mem_range.2 (Array.getElem?_eq_some_iff.1 hc).1
  simpa using h.nodup.length_le_of_subset hsub

theorem mem_self (h : Dag g i S) (hc : (g.cell i).isScalar = false) : i ∈ S := by
  cases h with
  | scalar hs => simp [cell_of_getElem? hs, Cell.isScalar] at hc
  | node => exact List.mem_cons_self

/-- Each member of a container reaches containers of its own, among those of the container and
without it. -/
theorem member (h : Dag g i S) {j : Nat} (hj : j ∈ (g.cell i).members) :
    ∃ S', Dag g j S' ∧ S' ⊆ S ∧ i ∉ S' := by
  cases h with
  | scalar hs => simp [cell_of_getElem? hs, Cell.members] at hj
  | node S hc _ hkids hout =>
    rw [cell_of_getElem? hc] at hj
    exact ⟨S j, hkids j hj, fun x hx => List.mem_cons_of_mem i (subset_of_member hj hx), hout j hj⟩

/-- A member reaches fewer containers than its container. -/
theorem length_lt_of_member (h : Dag g i S) {S' : List Nat} (h' : Dag g j S') (hsub : S' ⊆ S)
    (hi : i ∉ S') (hc : (g.cell i).isScalar = false) : S'.length < S.length := by
  have hle := h'.nodup.length_le_of_subset (show S' ⊆ S.erase i from fun x hx =>
    (List.Nodup.mem_erase_iff h.nodup).2 ⟨fun hxi => hi (hxi ▸ hx), hsub hx⟩)
  have herase := List.length_erase_of_mem (h.mem_self hc)
  have hpos : 0 < S.length := List.length_pos_of_mem (h.mem_self hc)
  omega

/-- The unfolding of a cell without cycles does not change once it is deeper than the containers
it reaches. -/
theorem tree_eq (h : Dag g i S) : ∀ fuel, S.length < fuel →
    g.tree fuel i = g.tree (S.length + 1) i := by
  induction h with
  | scalar hc =>
    intro fuel hfuel
    obtain ⟨f, rfl⟩ : ∃ f, fuel = f + 1 := ⟨fuel - 1, by simp at hfuel; omega⟩
    rw [tree_succ, tree_succ, cell_of_getElem? hc]
  | @node i c S hc hscalar hkids hout ih =>
    intro fuel hfuel
    obtain ⟨f, rfl⟩ : ∃ f, fuel = f + 1 := ⟨fuel - 1, by simp at hfuel; omega⟩
    have hD : Dag g i (i :: (c.members.flatMap S).dedup) := .node S hc hscalar hkids hout
    apply tree_congr (cell_of_getElem? hc) (cell_of_getElem? hc)
    intro j hj
    have hlen : (S j).length < (i :: (c.members.flatMap S).dedup).length :=
      hD.length_lt_of_member (hkids j hj) (fun x hx => List.mem_cons_of_mem i (subset_of_member hj hx))
        (hout j hj) (by simpa [cell_of_getElem? hc] using hscalar)
    have hf : (S j).length < f := by
      simp only [List.length_cons] at hfuel hlen
      omega
    rw [ih j hj f hf, ih j hj _ hlen]

/-- A graph that agrees on the containers and scalars reached holds the same cell without
cycles. -/
theorem frame (h : Dag g i S) (ha : Agrees g g' S) : Dag g' i S := by
  induction h with
  | scalar hc => exact .scalar (ha.scalars _ _ hc)
  | @node i c S hc hscalar hkids hout ih =>
    refine .node S ?_ hscalar (fun j hj => ih j hj ⟨fun m hm => ?_, ha.scalars⟩) hout
    · rw [ha.owned i List.mem_cons_self, hc]
    · exact ha.owned m (List.mem_cons_of_mem i (subset_of_member hj hm))

theorem tree_frame (h : Dag g i S) (ha : Agrees g g' S) : ∀ fuel, g'.tree fuel i = g.tree fuel i := by
  induction h with
  | scalar hc =>
    intro fuel
    cases fuel with
    | zero => rfl
    | succ f => rw [tree_succ, tree_succ, cell_of_getElem? hc, cell_of_getElem? (ha.scalars _ _ hc)]
  | @node i c S hc hscalar hkids hout ih =>
    intro fuel
    cases fuel with
    | zero => rfl
    | succ f =>
      have hc' : g'.cells[i]? = some c := by rw [ha.owned i List.mem_cons_self, hc]
      apply tree_congr (cell_of_getElem? hc) (cell_of_getElem? hc')
      intro j hj
      exact ih j hj ⟨fun m hm => ha.owned m (List.mem_cons_of_mem i (subset_of_member hj hm)),
        ha.scalars⟩ f

end Dag

/-- The search for a way back to `target` fails while every cell it may meet satisfies `P`, a
property that excludes `target` and passes to members. -/
theorem reachesBack_eq_false (acyclic : Array Bool) {target : Nat} {P : Nat → Prop}
    (hP : ∀ x, P x → x ≠ target ∧ ∀ y ∈ (g.cell x).members, P y) :
    ∀ fuel todo seen, (∀ x ∈ todo, P x) → g.reachesBack acyclic target fuel todo seen = false := by
  intro fuel
  induction fuel with
  | zero => intro todo seen _; simp [reachesBack]
  | succ fuel ih =>
    intro todo seen htodo
    cases todo with
    | nil => simp [reachesBack]
    | cons x rest =>
      obtain ⟨hne, hkids⟩ := hP x (htodo x List.mem_cons_self)
      have hrest : ∀ y ∈ rest, P y := fun y hy => htodo y (List.mem_cons_of_mem x hy)
      simp only [reachesBack, beq_iff_eq, hne, if_false]
      split
      · exact ih rest seen hrest
      · exact ih _ _ fun y hy => (List.mem_append.1 hy).elim (hkids y) (hrest y)

/-- No cell from which no cycle can be reached lies on a cycle. -/
theorem Dag.cyclic_eq_false {i : Nat} {S : List Nat} (h : Dag g i S) (acyclic : Array Bool) :
    (g.cyclicCells acyclic)[i]?.getD false = false := by
  have hback : ∀ fuel seen, g.reachesBack acyclic i fuel (g.cell i).members seen = false := by
    intro fuel seen
    cases hs : (g.cell i).isScalar with
    | true =>
      have hnil : (g.cell i).members = [] := by
        cases hci : g.cell i <;> simp_all [Cell.isScalar, Cell.members]
      cases fuel <;> simp [hnil, reachesBack]
    | false =>
      have hP : ∀ x, (∃ S', Dag g x S' ∧ i ∉ S') →
          x ≠ i ∧ ∀ y ∈ (g.cell x).members, ∃ S', Dag g y S' ∧ i ∉ S' := by
        rintro x ⟨S', hx, hi⟩
        refine ⟨fun hxi => ?_, fun y hy => ?_⟩
        · subst hxi
          exact hi (h.unique hx ▸ h.mem_self hs)
        · obtain ⟨S'', hy, hsub, -⟩ := hx.member hy
          exact ⟨S'', hy, fun hi' => hi (hsub hi')⟩
      refine reachesBack_eq_false acyclic hP fuel _ seen fun y hy => ?_
      obtain ⟨S', hy, -, hi⟩ := h.member hy
      exact ⟨S', hy, hi⟩
  simp only [cyclicCells, Array.getElem?_map, Array.getElem?_range]
  split <;> simp [hback]

theorem id_bind {α β : Type} (x : Id α) (f : α → Id β) : x >>= f = f x := rfl

/-- The functor of `Id` is named in full: with more instances in scope, `<$>` on `Id` can be
found through another path. -/
theorem id_map {α β : Type} (x : Id α) (f : α → β) :
    @Functor.map Id (@Applicative.toFunctor Id (@Monad.toApplicative Id Id.instMonad)) α β f x =
      f x := rfl

theorem id_pure {α : Type} (a : α) : (pure a : Id α) = a := rfl

/-- A stateful map over a list, whose every step gives its own result and keeps an invariant,
gives the list of the results and keeps the invariant. -/
theorem mapM_run_of_forall {σ α β : Type} (Inv : σ → Prop) (F : α → StateM σ β) (r : α → β) :
    ∀ xs : List α, (∀ x ∈ xs, ∀ s, Inv s → ∃ s', (F x).run s = (r x, s') ∧ Inv s') →
      ∀ s, Inv s → ∃ s', (xs.mapM F).run s = (xs.map r, s') ∧ Inv s'
  | [], _, s, hs => ⟨s, rfl, hs⟩
  | x :: xs, hF, s, hs => by
    obtain ⟨s₁, h₁, hs₁⟩ := hF x List.mem_cons_self s hs
    obtain ⟨s₂, h₂, hs₂⟩ :=
      mapM_run_of_forall Inv F r xs (fun y hy => hF y (List.mem_cons_of_mem x hy)) s₁ hs₁
    refine ⟨s₂, ?_, hs₂⟩
    simp [List.mapM_cons, h₁, id_bind, id_map, h₂]

/-- Every value the shared unfolding keeps is the plain unfolding of a cell without cycles. -/
def Cached (g : Graph) (st : Array (Option Value)) : Prop :=
  ∀ k v, st[k]? = some (some v) → ∃ S, Dag g k S ∧ v = g.tree (S.length + 1) k

theorem Cached.set {st : Array (Option Value)} (hst : Cached g st) {i : Nat} {S : List Nat}
    (h : Dag g i S) : Cached g (st.setIfInBounds i (some (g.tree (S.length + 1) i))) := by
  intro k v hk
  rw [Array.getElem?_setIfInBounds] at hk
  split at hk
  · subst k
    split at hk
    · cases hk
      exact ⟨S, h, rfl⟩
    · cases hk
  · exact hst k v hk

/-- The last step of unfolding a container: its value is kept when it reaches no cycle, and the
cache stays sound. -/
theorem unfold_keep (acyclic : Array Bool) {st : Array (Option Value)} (hst : Cached g st)
    {i : Nat} {S : List Nat} (h : Dag g i S) {v : Value} (hv : v = g.tree (S.length + 1) i) :
    ∃ st', StateT.run ((if acyclic[i]?.getD false = true then
        (do modify fun (x : Array (Option Value)) => x.setIfInBounds i (some v); pure (v, []))
      else pure (v, [])) : StateM (Array (Option Value)) (Value × List Nat)) st =
        ((v, []), st') ∧ Cached g st' := by
  split
  · exact ⟨_, rfl, hv ▸ hst.set h⟩
  · exact ⟨st, rfl, hst⟩

/-- **Unfolding a cell without cycles.** The shared unfolding, below a path of containers that
the cell does not reach and with fuel beyond its depth, gives the plain unfolding and refers back
to nothing; the cells it keeps hold plain unfoldings. -/
theorem Dag.unfold_eq {i : Nat} {S : List Nat} (h : Dag g i S) (acyclic : Array Bool) :
    ∀ fuel path st, S.length < fuel → (∀ p ∈ path, p ∉ S) → Cached g st →
      ∃ st', (g.unfold acyclic (g.cyclicCells acyclic) fuel path i).run st =
        ((g.tree fuel i, []), st') ∧ Cached g st' := by
  induction h with
  | @scalar i v hc =>
    intro fuel path st hfuel _ hst
    obtain ⟨f, rfl⟩ : ∃ f, fuel = f + 1 := ⟨fuel - 1, by simp at hfuel; omega⟩
    have hcell := cell_of_getElem? hc
    refine ⟨st, ?_, hst⟩
    simp only [unfold, StateT.run_bind, StateT.run_get, id_bind, id_pure]
    split
    · rename_i w hw
      obtain ⟨S', hS', rfl⟩ := hst i w hw
      rw [(Dag.scalar hc).unique hS', tree_succ, tree_succ, hcell]
      rfl
    · rw [hcell, tree_succ, hcell]
      rfl
  | @node i c S hc hscalar hkids hout ih =>
    intro fuel path st hfuel hpath hst
    obtain ⟨f, rfl⟩ : ∃ f, fuel = f + 1 := ⟨fuel - 1, by simp at hfuel; omega⟩
    have hD : Dag g i (i :: (c.members.flatMap S).dedup) := .node S hc hscalar hkids hout
    have hcell := cell_of_getElem? hc
    have htree := hD.tree_eq (f + 1) hfuel
    have hinner : ∀ j ∈ c.members, ∀ st, Cached g st → ∃ st',
        (g.unfold acyclic (g.cyclicCells acyclic) f (i :: path) j).run st =
          ((g.tree f j, []), st') ∧ Cached g st' := by
      intro j hj st hst
      have hsub : ∀ x ∈ S j, x ∈ i :: (c.members.flatMap S).dedup :=
        fun x hx => List.mem_cons_of_mem i (Dag.subset_of_member hj hx)
      refine ih j hj f (i :: path) st ?_ ?_ hst
      · have := hD.length_lt_of_member (hkids j hj) hsub (hout j hj) (by simpa [hcell] using hscalar)
        simp only [List.length_cons] at hfuel this
        omega
      · intro p hp hpj
        rcases List.mem_cons.1 hp with rfl | hp
        · exact hout j hj hpj
        · exact hpath p hp (hsub p hpj)
    have hitems : ∀ xs, xs = c.members → ∃ st1,
        (xs.mapM (g.unfold acyclic (g.cyclicCells acyclic) f (i :: path))).run st =
          (xs.map fun j => (g.tree f j, []), st1) ∧ Cached g st1 :=
      fun xs hxs => mapM_run_of_forall _ _ _ xs (fun j hj => hinner j (hxs ▸ hj)) st hst
    have hp : path.contains i = false := by
      simpa using fun hi => hpath i hi List.mem_cons_self
    have hcyc := hD.cyclic_eq_false acyclic
    simp only [unfold, StateT.run_bind, StateT.run_get, id_bind, id_pure]
    split
    · rename_i w hw
      obtain ⟨S', hS', rfl⟩ := hst i w hw
      rw [hD.unique hS', ← htree]
      exact ⟨st, rfl, hst⟩
    · cases c with
      | scalar => simp [Cell.isScalar] at hscalar
      | list xs | tuple xs | set xs =>
        obtain ⟨st1, h1, hst1⟩ := hitems xs rfl
        have hnil : List.flatMap (fun _ => ([] : List Nat)) xs = [] := by simp
        simp only [hcell, hp, Bool.false_eq_true, if_false, bind_assoc, pure_bind, StateT.run_bind,
          h1, id_bind, List.map_map, hcyc, List.flatMap_map, hnil, List.eraseDups_nil,
          List.contains_nil, Bool.or_false, List.filter_nil, Function.comp_def]
        rw [tree_succ, hcell]
        exact unfold_keep acyclic hst1 hD (by rw [← htree, tree_succ, hcell])
      | map es =>
        have hentry : ∀ e ∈ es, ∀ st, Cached g st → ∃ st', StateT.run (do
            let a ← g.unfold acyclic (g.cyclicCells acyclic) f (i :: path) e.1
            let b ← g.unfold acyclic (g.cyclicCells acyclic) f (i :: path) e.2
            pure ((a.1, b.1), a.2 ++ b.2)) st = (((g.tree f e.1, g.tree f e.2), []), st') ∧
              Cached g st' := by
          intro e he st hst
          have hk : e.1 ∈ (Cell.map es).members := List.mem_flatMap.2 ⟨e, he, by simp⟩
          have hv : e.2 ∈ (Cell.map es).members := List.mem_flatMap.2 ⟨e, he, by simp⟩
          obtain ⟨st1, h1, hst1⟩ := hinner e.1 hk st hst
          obtain ⟨st2, h2, hst2⟩ := hinner e.2 hv st1 hst1
          exact ⟨st2, by simp [StateT.run_bind, h1, h2, id_bind, id_map], hst2⟩
        obtain ⟨st1, h1, hst1⟩ := mapM_run_of_forall _ _
          (fun e => ((g.tree f e.1, g.tree f e.2), ([] : List Nat))) es hentry st hst
        have hnil : List.flatMap (fun _ => ([] : List Nat)) es = [] := by simp
        simp only [hcell, hp, Bool.false_eq_true, if_false, pure_bind, StateT.run_bind, id_bind]
        simp only [h1, List.map_map, hcyc, List.flatMap_map, hnil, List.eraseDups_nil,
          List.contains_nil, Bool.or_false, Bool.false_eq_true, if_false, List.filter_nil,
          Function.comp_def]
        rw [tree_succ, hcell]
        exact unfold_keep acyclic hst1 hD (by rw [← htree, tree_succ, hcell])

/-- **The value of a cell without cycles.** `Graph.term` gives it its plain unfolding: no knot,
no reference back, and each container shared in each of its places. -/
theorem Dag.term_eq {i : Nat} {S : List Nat} (h : Dag g i S) :
    g.term i = g.tree (S.length + 1) i := by
  have hfuel : S.length < g.cells.size + 1 := Nat.lt_succ_of_le h.length_le
  have hempty : Cached g (Array.replicate g.cells.size none) := by
    intro k v hk
    simp [Array.getElem?_replicate] at hk
  obtain ⟨st, hrun, -⟩ := h.unfold_eq (acyclicCells g) _ [] _ hfuel (by simp) hempty
  simp only [term, Id.run, hrun]
  exact h.tree_eq _ hfuel

/-! ## The value of a cell -/

/-- The value of cell `i`: its unfolding as deep as the graph has cells, which for a cell without
cycles is all of it. -/
def value (g : Graph) (i : Nat) : Value := g.tree (g.cells.size + 1) i

theorem Dag.value_eq {i : Nat} {S : List Nat} (h : Dag g i S) :
    g.value i = g.tree (S.length + 1) i :=
  h.tree_eq _ (Nat.lt_succ_of_le h.length_le)

theorem Dag.term_eq_value {i : Nat} {S : List Nat} (h : Dag g i S) : g.term i = g.value i := by
  rw [h.term_eq, h.value_eq]

theorem value_of_scalar {i : Nat} {v : Value} (hc : g.cells[i]? = some (.scalar v)) :
    g.value i = v := by
  rw [value, tree_succ, cell_of_getElem? hc]

/-- The value of a map cell without cycles is the map of the values of its keys and values. -/
theorem Dag.value_map {i : Nat} {S : List Nat} (h : Dag g i S) {es : List (Nat × Nat)}
    (hc : g.cells[i]? = some (.map es)) :
    g.value i = .map (es.map fun e => (g.value e.1, g.value e.2)) := by
  have hmember : ∀ j ∈ (Cell.map es).members, g.tree g.cells.size j = g.value j := by
    intro j hj
    obtain ⟨S', hj', hsub, hi⟩ := h.member (by rwa [cell_of_getElem? hc])
    have hlt := h.length_lt_of_member hj' hsub hi (by simp [cell_of_getElem? hc, Cell.isScalar])
    have hS := h.length_le
    rw [value, hj'.tree_eq g.cells.size (by omega), hj'.tree_eq (g.cells.size + 1) (by omega)]
  rw [value, tree_succ, cell_of_getElem? hc]
  dsimp only
  congr 1
  apply List.map_congr_left
  intro e he
  rw [hmember e.1 (List.mem_flatMap.2 ⟨e, he, by simp⟩),
    hmember e.2 (List.mem_flatMap.2 ⟨e, he, by simp⟩)]

/-- A graph that agrees on the containers and scalars reached gives the same value. -/
theorem Dag.value_frame {i : Nat} {S : List Nat} (h : Dag g i S) (ha : Agrees g g' S) :
    g'.value i = g.value i := by
  have h' := h.frame ha
  rw [h'.value_eq, h.value_eq, h.tree_frame ha]

/-! ## Deciding that no cycle can be reached -/

/-- The containers reached from cell `i` when no cycle can be reached from it; `fuel` bounds the
depth. -/
def dagCells (g : Graph) : Nat → Nat → Option (List Nat)
  | 0, _ => none
  | fuel + 1, i =>
    match g.cells[i]? with
    | none => none
    | some (.scalar _) => some []
    | some c =>
      if c.members.all fun j => ((g.dagCells fuel j).map fun S => !S.contains i).getD false then
        some (i :: (c.members.flatMap fun j => (g.dagCells fuel j).getD []).dedup)
      else none

theorem Dag.of_dagCells : ∀ (fuel i : Nat) (S : List Nat), g.dagCells fuel i = some S →
    Dag g i S := by
  intro fuel
  induction fuel with
  | zero => intro i S h; simp [dagCells] at h
  | succ fuel ih =>
    intro i S h
    unfold dagCells at h
    split at h
    · cases h
    · cases h
      exact .scalar ‹_›
    · rename_i c hns hc
      have hscalar : c.isScalar = false := by
        cases c <;> simp_all [Cell.isScalar]
      split at h
      · rename_i hall
        cases h
        have hkid : ∀ j ∈ c.members, ∃ T, g.dagCells fuel j = some T ∧ i ∉ T := by
          intro j hj
          have := List.all_eq_true.1 hall j hj
          cases hT : g.dagCells fuel j with
          | none => simp [hT] at this
          | some T => exact ⟨T, rfl, by simpa [hT] using this⟩
        refine .node _ hc hscalar (fun j hj => ih j _ ?_) fun j hj => ?_
        · obtain ⟨T, hT, -⟩ := hkid j hj
          simp [hT]
        · obtain ⟨T, hT, hiT⟩ := hkid j hj
          simpa [hT] using hiT
      · cases h

/-- `dagCells` finds the containers reached, given more fuel than there are. -/
theorem Dag.dagCells_eq {i : Nat} {S : List Nat} (h : Dag g i S) :
    ∀ fuel, S.length < fuel → g.dagCells fuel i = some S := by
  induction h with
  | scalar hc =>
    intro fuel hfuel
    obtain ⟨f, rfl⟩ : ∃ f, fuel = f + 1 := ⟨fuel - 1, by simp at hfuel; omega⟩
    simp [dagCells, hc]
  | @node i c S hc hscalar hkids hout ih =>
    intro fuel hfuel
    obtain ⟨f, rfl⟩ : ∃ f, fuel = f + 1 := ⟨fuel - 1, by simp at hfuel; omega⟩
    have hD : Dag g i (i :: (c.members.flatMap S).dedup) := .node S hc hscalar hkids hout
    have hkid : ∀ j ∈ c.members, g.dagCells f j = some (S j) := by
      intro j hj
      have := hD.length_lt_of_member (hkids j hj)
        (fun x hx => List.mem_cons_of_mem i (subset_of_member hj hx)) (hout j hj)
        (by simpa [cell_of_getElem? hc] using hscalar)
      simp only [List.length_cons] at hfuel this
      exact ih j hj f (by omega)
    have hall : (c.members.all fun j => ((g.dagCells f j).map fun T => !T.contains i).getD false) =
        true :=
      List.all_eq_true.2 fun j hj => by simp [hkid j hj, hout j hj]
    have hS : (c.members.flatMap fun j => (g.dagCells f j).getD []) = c.members.flatMap S :=
      List.flatMap_congr fun j hj => by simp [hkid j hj]
    have hstep : g.dagCells (f + 1) i =
        if (c.members.all fun j => ((g.dagCells f j).map fun T => !T.contains i).getD false) then
          some (i :: (c.members.flatMap fun j => (g.dagCells f j).getD []).dedup)
        else none := by
      cases c with
      | scalar => simp [Cell.isScalar] at hscalar
      | _ => simp only [dagCells, hc]
    rw [hstep, if_pos hall, hS]

/-- The containers reached from cell `i`; none when a cycle can be reached from it. -/
def reach (g : Graph) (i : Nat) : List Nat := (g.dagCells (g.cells.size + 1) i).getD []

theorem Dag.reach_eq {i : Nat} {S : List Nat} (h : Dag g i S) : g.reach i = S := by
  rw [reach, h.dagCells_eq _ (Nat.lt_succ_of_le h.length_le)]
  rfl

end Graph

end BlockPlan
