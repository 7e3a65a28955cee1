import BlockPlan.Proofs.MergeInPlace
import BlockPlan.Proofs.Traversal
import BlockPlan.Yaml.Native

/-!
# The cells a document is read into

The values of a document are made into the cells of a graph that starts as `Graph.empty`, whose
one cell holds the not-a-number every document shares. Two facts hold of every graph the reader
makes (`readYamlGraph_plain`), and merging settings relies on both:

* cell 0 still holds that not-a-number: `.nan` is given cell 0, and no collection is filled
  there;
* no scalar cell holds a map: a scalar is made from its text (`scalarValue_ne_map`), and a
  collection has a cell of its own.

`Making.Sound` carries them through a run, with what keeps cell 0 safe from `fill`: each
collection waiting to be filled was given a cell of its own, never cell 0.
-/

namespace BlockPlan

/-- What every graph the reader makes keeps: cell 0 holds the shared not-a-number, and no
scalar cell holds a map. -/
structure Graph.Plain (g : Graph) : Prop where
  nan : g.cells[0]? = Graph.empty.cells[0]?
  scalars : g.ScalarsPlain

namespace Graph

variable {g : Graph} {c : Cell}

theorem Plain.size_pos (h : g.Plain) : 0 < g.cells.size := by
  have hnan := h.nan
  simp only [Graph.empty, List.getElem?_toArray, List.getElem?_cons_zero] at hnan
  exact (Array.getElem?_eq_some_iff.1 hnan).1

/-- Adding a cell that is no scalar map keeps a graph plain. -/
theorem Plain.push (h : g.Plain) (hc : ∀ es, c ≠ .scalar (.map es)) :
    (⟨g.cells.push c⟩ : Graph).Plain where
  nan := by
    rw [Array.getElem?_push, if_neg (Nat.ne_of_lt h.size_pos), h.nan]
  scalars := by
    intro j es
    rw [Array.getElem?_push]
    split
    · simpa using hc es
    · exact h.scalars j es

/-- Filling a cell other than 0 with a cell that is no scalar map keeps a graph plain. -/
theorem Plain.set {i : Nat} (h : g.Plain) (hi : i ≠ 0) (hc : ∀ es, c ≠ .scalar (.map es)) :
    (⟨g.cells.setIfInBounds i c⟩ : Graph).Plain where
  nan := by
    rw [Array.getElem?_setIfInBounds, if_neg hi, h.nan]
  scalars := by
    intro j es
    rw [Array.getElem?_setIfInBounds]
    split
    · split
      · simpa using hc es
      · simp
    · exact h.scalars j es

end Graph

namespace Yaml

/-- A timestamp is a date or a date with time, never a map. -/
theorem yamlStamp_ne_map {v : Text} {x : Value} (h : yamlStamp v = .ok x)
    (es : List (Value × Value)) : x ≠ .map es := by
  unfold yamlStamp at h
  simp only [bind, Except.bind, pure, Except.pure, throw, throwThe, MonadExceptOf.throw] at h
  -- every check either throws or goes on; only the two final results are values
  repeat' split at h
  all_goals cases h
  all_goals simp

/-- The value of a scalar's text is never a map. -/
theorem scalarValue_ne_map {m : Maker} {v : Text} {start : Mark} {x : Value}
    (h : scalarValue m v start = .ok x) (es : List (Value × Value)) : x ≠ .map es := by
  cases m
  case timestamp => exact yamlStamp_ne_map h es
  all_goals
    simp only [scalarValue, Functor.map, Except.map] at h
    repeat' split at h
    all_goals cases h
    all_goals simp

/-- A node past the end of a document is made a scalar or refused: only a node of the document
can be a collection. -/
theorem lt_size_of_collection {doc : Document} {st : Making} {i : Nat} {m : Maker}
    (hm : makerOf (st.tagOf doc i) = some m) (hs : m.isScalar = false) : i < doc.nodes.size := by
  by_contra hi
  have hnode : doc.node i = default := by
    simp [Document.node, Array.getElem?_eq_none (Nat.le_of_not_lt hi)]
  unfold Making.tagOf at hm
  split at hm
  · have hstr : makerOf (coreTag "str") = some .str := rfl
    rw [hstr, Option.some.injEq] at hm
    subst hm
    cases hs
  · have hnone : makerOf (default : Node).tag = none := rfl
    rw [hnode, hnone] at hm
    cases hm

namespace Making

variable {doc : Document} {st : Making}

/-- The invariant of making the values of `doc`: the graph so far is plain, there is a place to
note the cell of every node, and each collection waiting to be filled was given a cell other
than 0. -/
structure Sound (doc : Document) (st : Making) : Prop where
  plain : st.graph.Plain
  made : st.made.size = doc.nodes.size
  waiting : ∀ p ∈ st.waiting, ∃ c, st.made[p.1]? = some (some c) ∧ c ≠ 0

theorem start_sound (doc : Document) : (start doc).Sound doc where
  plain := ⟨rfl, fun j es => by
    simp only [start, graph, Graph.empty]
    cases j <;> simp⟩
  made := by simp [start]
  waiting := by simp [start]

/-- The invariant reads only the cells, the cells given to nodes and the waiting collections. -/
theorem Sound.of_eq {st' : Making} (h : st.Sound doc) (hc : st'.cells = st.cells)
    (hm : st'.made = st.made) (hw : st'.waiting = st.waiting) : st'.Sound doc := by
  have hg : st'.graph = st.graph := by simp [graph, hc]
  refine ⟨hg ▸ h.plain, hm ▸ h.made, ?_⟩
  rw [hw, hm]
  exact h.waiting

theorem Sound.addCell {c : Cell} (h : st.Sound doc) (hc : ∀ es, c ≠ .scalar (.map es)) :
    (st.addCell c).1.Sound doc :=
  ⟨h.plain.push hc, h.made, h.waiting⟩

theorem Sound.putCell {i : Nat} {c : Cell} (h : st.Sound doc) (hi : i ≠ 0)
    (hc : ∀ es, c ≠ .scalar (.map es)) : (st.putCell i c).Sound doc :=
  ⟨h.plain.set hi hc, h.made, h.waiting⟩

/-- Noting the cell of a node that had none keeps the cells of the waiting collections. -/
theorem Sound.note {i c : Nat} (h : st.Sound doc) (hfree : ∀ c, st.made[i]? ≠ some (some c)) :
    (st.note i c).Sound doc where
  plain := h.plain
  made := by simp [Making.note, h.made]
  waiting := by
    intro p hp
    obtain ⟨c', hc', hne⟩ := h.waiting p hp
    have hpi : i ≠ p.1 := by
      rintro rfl
      exact hfree c' hc'
    refine ⟨c', ?_, hne⟩
    simp only [Making.note, Array.getElem?_setIfInBounds, if_neg hpi, hc']

/-- Making a node keeps the invariant. -/
theorem touch_sound {i c : Nat} {st' : Making} (h : st.Sound doc)
    (ht : touch doc st i = .ok (st', c)) : st'.Sound doc := by
  unfold touch at ht
  split at ht
  · -- made before: nothing changes
    cases ht
    exact h
  · rename_i hfree
    split at ht
    · cases ht
    · rename_i m hm
      split at ht
      · dsimp only at ht
        split at ht
        · obtain ⟨value, hv, ht⟩ := (bind_eq_ok_iff _ _ _).1 ht
          split at ht
          · -- the shared not-a-number is noted as cell 0
            cases ht
            exact h.note hfree
          · cases ht
            exact (h.addCell fun es => by simpa using scalarValue_ne_map hv es).note hfree
        · cases ht
      · -- a collection gets a new cell, other than 0, and waits
        rename_i hs
        cases ht
        have hlt : i < st.made.size := h.made ▸ lt_size_of_collection hm (by simpa using hs)
        have hadd : (st.addCell m.emptyCell).1.Sound doc :=
          h.addCell fun es => by cases m <;> simp [Maker.emptyCell]
        have hnote := hadd.note (c := st.cells.size) hfree
        refine ⟨hnote.plain, hnote.made, ?_⟩
        intro p hp
        rcases Array.mem_push.1 hp with hp | rfl
        · exact hnote.waiting p hp
        · refine ⟨st.cells.size, ?_, Nat.ne_of_gt h.plain.size_pos⟩
          simp [Making.note, hlt]

/-- Merging the `<<` keys of a mapping changes its pairs and the tags of keys only. -/
theorem merge_sound : ∀ {fuel : Nat} {st : Making} {i index : Nat} {merged : List (Nat × Nat)}
    {st' : Making}, st.Sound doc → merge doc fuel st i index merged = .ok st' → st'.Sound doc
  | 0, _, _, _, _, _, h, hm => by
    cases hm
    exact h
  | fuel + 1, st, i, index, merged, st', h, hm => by
    unfold merge at hm
    dsimp only at hm
    split at hm
    · split at hm
      · cases hm
        exact h
      · cases hm
        exact h.of_eq rfl rfl rfl
    · split at hm
      · -- a merge key: the mappings it names are merged first
        split at hm
        · obtain ⟨st1, hst1, hm⟩ := (bind_eq_ok_iff _ _ _).1 hm
          refine merge_sound (merge_sound ?_ hst1) hm
          exact h.of_eq rfl rfl rfl
        · obtain ⟨⟨st1, taken⟩, hfold, hm⟩ := (bind_eq_ok_iff _ _ _).1 hm
          refine merge_sound (foldlM_invariant _ (fun acc => acc.1.Sound doc) _ ?_ _ _ ?_ hfold) hm
          · rintro ⟨s, ts⟩ sub ⟨s', ts'⟩ - hs hstep
            dsimp only at hstep
            split at hstep
            · obtain ⟨s1, hs1, hstep⟩ := (bind_eq_ok_iff _ _ _).1 hstep
              cases hstep
              exact merge_sound hs hs1
            · cases hstep
          · exact h.of_eq rfl rfl rfl
        · cases hm
      · split at hm
        · refine merge_sound ?_ hm
          exact h.of_eq rfl rfl rfl
        · exact merge_sound h hm

/-- Making the members of a collection one by one keeps the invariant. -/
theorem touch_fold_sound {items : List Nat} {acc acc' : Making × List Nat}
    (h : acc.1.Sound doc)
    (hf : items.foldlM (fun (acc : Making × List Nat) j => do
        let (st, xs) := acc
        let (st, x) ← touch doc st j
        pure (st, x :: xs)) acc = .ok acc') : acc'.1.Sound doc := by
  refine foldlM_invariant _ (fun acc => acc.1.Sound doc) _ ?_ _ _ h hf
  rintro ⟨s, xs⟩ j ⟨s', ys⟩ - hs hstep
  obtain ⟨⟨s1, x⟩, ht, hstep⟩ := (bind_eq_ok_iff _ _ _).1 hstep
  cases hstep
  exact touch_sound hs ht

/-- Filling a collection whose node was given a cell other than 0 keeps the invariant: its
members are made, and its cell is filled with a container. -/
theorem fill_sound {fuel i : Nat} {m : Maker} {st' : Making} (h : st.Sound doc)
    (hc : ∃ c, st.made[i]? = some (some c) ∧ c ≠ 0) (hf : fill doc fuel st i m = .ok st') :
    st'.Sound doc := by
  obtain ⟨c, hci, hc0⟩ := hc
  have hcell : (st.made[i]?.getD none).getD 0 ≠ 0 := by simpa [hci] using hc0
  unfold fill at hf
  dsimp only at hf
  split at hf
  case h_1 =>
    -- a sequence
    split at hf
    · obtain ⟨acc, hfold, hf⟩ := (bind_eq_ok_iff _ _ _).1 hf
      cases hf
      exact (touch_fold_sound h hfold).putCell hcell (by simp)
    · cases hf
  case h_2 | h_3 =>
    -- ordered pairs: each member is a mapping of one pair, made a tuple
    split at hf
    · obtain ⟨acc, hfold, hf⟩ := (bind_eq_ok_iff _ _ _).1 hf
      cases hf
      refine (foldlM_invariant _ (fun acc : Making × List Nat => acc.1.Sound doc) _ ?_ _ _ h
        hfold).putCell hcell (by simp)
      rintro ⟨s, xs⟩ j ⟨s', ys⟩ - hs hstep
      dsimp only at hstep
      split at hstep
      · split at hstep
        · obtain ⟨⟨s1, kc⟩, hk, hstep⟩ := (bind_eq_ok_iff _ _ _).1 hstep
          obtain ⟨⟨s2, vc⟩, hv, hstep⟩ := (bind_eq_ok_iff _ _ _).1 hstep
          cases hstep
          exact (touch_sound (touch_sound hs hk) hv).addCell (by simp)
        · cases hstep
      · cases hstep
    · cases hf
  case h_4 =>
    -- a mapping or a set: merge keys first, then each pair is made
    split at hf
    · obtain ⟨st1, hst1, hf⟩ := (bind_eq_ok_iff _ _ _).1 hf
      obtain ⟨acc, hfold, hf⟩ := (bind_eq_ok_iff _ _ _).1 hf
      cases hf
      refine (foldlM_invariant _ (fun acc : Making × List (Nat × Nat) => acc.1.Sound doc) _ ?_
        _ _ (merge_sound h hst1) hfold).putCell hcell (by split <;> simp)
      rintro ⟨s, es⟩ kv ⟨s', es'⟩ - hs hstep
      obtain ⟨⟨s1, kc⟩, hk, hstep⟩ := (bind_eq_ok_iff _ _ _).1 hstep
      -- a key that is no scalar is refused
      split_ifs at hstep
      · cases hstep
      · obtain ⟨⟨s2, vc⟩, hv, hstep⟩ := (bind_eq_ok_iff _ _ _).1 hstep
        cases hstep
        exact touch_sound (touch_sound hs hk) hv
    · cases hf

/-- Filling the waiting collections keeps the invariant. -/
theorem fillAll_sound {fuel : Nat} : ∀ {more : Nat} {st st' : Making}, st.Sound doc →
    fillAll doc fuel more st = .ok st' → st'.Sound doc
  | 0, _, _, h, hf => by
    cases hf
    exact h
  | more + 1, st, st', h, hf => by
    unfold fillAll at hf
    split at hf
    · cases hf
      exact h
    · rename_i i m hw
      obtain ⟨st1, hst1, hf⟩ := (bind_eq_ok_iff _ _ _).1 hf
      refine fillAll_sound (fill_sound ?_ ?_ hst1) hf
      · exact h.of_eq rfl rfl rfl
      · exact h.waiting _ (Array.mem_of_getElem? hw)

end Making

/-- Every graph the values of a document are made into is plain. -/
theorem values_plain {doc : Document} {g : Graph} {root : Nat}
    (h : doc.values = .ok (g, root)) : g.Plain := by
  unfold Document.values at h
  obtain ⟨⟨st, r⟩, ht, h⟩ := (bind_eq_ok_iff _ _ _).1 h
  obtain ⟨st', hf, h⟩ := (bind_eq_ok_iff _ _ _).1 h
  cases h
  exact (Making.fillAll_sound (Making.touch_sound (Making.start_sound doc) ht) hf).plain

end Yaml

/-- Every graph read from a YAML stream keeps the shared not-a-number in cell 0, and no scalar
of it holds a map. -/
theorem readYamlGraph_plain {src : Text} {caller : Nat} {g : Graph} {root : Nat}
    (h : readYamlGraph src caller = .ok (some (g, root))) : g.Plain := by
  unfold readYamlGraph at h
  obtain ⟨d, -, h⟩ := (bind_eq_ok_iff _ _ _).1 h
  split at h
  · cases h
  · obtain ⟨⟨g', r'⟩, hv, h⟩ := (map_eq_ok_iff _ _ _).1 h
    cases h
    exact Yaml.values_plain hv

end BlockPlan
