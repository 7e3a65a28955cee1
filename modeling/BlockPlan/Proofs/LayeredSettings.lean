import BlockPlan.Proofs.ReadCells
import BlockPlan.Settings

/-!
# Settings merged layer by layer

The settings are loaded as three layers of maps: the defaults, the project file and the named
file. Each file is read into a graph of its own, appended to the settings so far
(`Graph.append`: the shared not-a-number stays at cell 0, every other cell moves up by the same
amount) and merged into them in place (`Graph.mergeInto`).

A merge in place changes the maps of the settings so far, and every place that holds one of them
sees the change. Loading is the merge of values (`loadSettings_eq_merged`) when both files key
the maps they reach through maps alone by exact keys (none, truth values, whole numbers, texts,
bytes, dates), each once, with no cycle (`Graph.IsSpine`), and the project file holds none of
those maps in two places (`Graph.IsExclusiveSpine`). The named file, merged last, may hold its
values in many places. Loading then gives the defaults merged with the project file's map, merged
with the named file's (`mergedSettings`), and fails with the recursion error exactly when a merge
nests deeper than the calls left allow. The law of each path follows from `mergeEntries_at`. A
map of the project file held in two places breaks this: merging the named file into one of them
changes both (`aliasedSettings_merge_both`).

`Layer g b es` is what carries the merges: map cell `b` of a plain graph (`Graph.Plain`, as the
reader makes every graph) is a spine whose entries are `es`. Appending keeps the cells of the two
graphs apart (`apart_append`), and a merge in place leaves a layer again, exclusive when both
layers were (`mergeLayer_holds`).
-/

namespace BlockPlan

/-- Whether a cell is a scalar holding a map. -/
def Cell.scalarMap : Cell → Bool
  | .scalar (.map _) => true
  | _ => false

namespace Graph

variable {g h : Graph}

/-! ## Appending a graph -/

theorem shifted_zero (n : Nat) : Cell.shifted n 0 = 0 := rfl

theorem shifted_of_ne {n i : Nat} (hi : i ≠ 0) : Cell.shifted n i = n + i - 1 := by
  simp [Cell.shifted, hi]

theorem shifted_injective {n : Nat} (hn : 0 < n) : Function.Injective (Cell.shifted n) := by
  intro i j hij
  by_cases hi : i = 0 <;> by_cases hj : j = 0
  · rw [hi, hj]
  · rw [hi, shifted_zero, shifted_of_ne hj] at hij
    omega
  · rw [hj, shifted_zero, shifted_of_ne hi] at hij
    omega
  · rw [shifted_of_ne hi, shifted_of_ne hj] at hij
    omega

theorem members_shift (n : Nat) (c : Cell) :
    (c.shift n).members = c.members.map (Cell.shifted n) := by
  cases c <;> simp [Cell.shift, Cell.members, List.map_flatMap, List.flatMap_map]

theorem isScalar_shift (n : Nat) (c : Cell) : (c.shift n).isScalar = c.isScalar := by
  cases c <;> rfl

theorem size_append : (g.append h).cells.size = g.cells.size + (h.cells.size - 1) := by
  simp [append]

/-- The cells of the first graph keep their numbers. -/
theorem append_getElem?_of_lt {i : Nat} (hi : i < g.cells.size) :
    (g.append h).cells[i]? = g.cells[i]? := by
  simp [append, Array.getElem?_append_left hi]

/-- The containers a spine reaches are containers of its graph. -/
theorem Spine.container {i : Nat} {Sp Lo : List Nat} (hs : Spine g i Sp Lo) :
    ∀ j ∈ Sp ++ Lo, ∃ c, g.cells[j]? = some c ∧ c.isScalar = false := by
  induction hs with
  | leaf hd =>
    intro j hj
    exact hd.container j (by simpa using hj)
  | @map i es Sp Lo hc _ _ _ _ ih =>
    intro j hj
    simp only [List.cons_append, List.mem_cons, List.mem_append, List.mem_flatMap] at hj
    rcases hj with rfl | ⟨e, he, hje⟩ | ⟨e, he, hje⟩
    · exact ⟨_, hc, rfl⟩
    · exact ih e he j (List.mem_append_left _ hje)
    · exact ih e he j (List.mem_append_right _ hje)

/-- A graph appended after another leaves the cells below its size as they were. -/
theorem agrees_append {S : List Nat} (hS : ∀ j ∈ S, j < g.cells.size) :
    Agrees g (g.append h) S where
  owned j hj := append_getElem?_of_lt (hS j hj)
  scalars j v hc := by
    rw [append_getElem?_of_lt (Array.getElem?_eq_some_iff.1 hc).1]
    exact hc

/-- A spine of the first graph stays a spine, with its lists and its value, when a graph is
appended. -/
theorem IsSpine.append_left {i : Nat} (hs : g.IsSpine i) :
    (g.append h).IsSpine i ∧ (g.append h).spineMaps i = g.spineMaps i ∧
      (g.append h).leafCells i = g.leafCells i ∧ (g.append h).value i = g.value i := by
  have ha : Agrees g (g.append h) (g.spineMaps i ++ g.leafCells i) :=
    agrees_append fun j hj => by
      obtain ⟨c, hc, -⟩ := Spine.container hs j hj
      exact (Array.getElem?_eq_some_iff.1 hc).1
  have hs' := Spine.agrees hs ha
  obtain ⟨h₁, h₂⟩ := hs'.canonical
  exact ⟨hs'.isSpine, h₁, h₂, Spine.value_agrees hs ha⟩

section Shifted

variable (hg : g.Plain) (hh : h.Plain)
include hg hh

/-- A cell of the second graph moves up to its shifted number, its members with it. -/
theorem append_getElem?_shifted (j : Nat) :
    (g.append h).cells[Cell.shifted g.cells.size j]? =
      (h.cells[j]?).map (Cell.shift g.cells.size) := by
  by_cases hj : j = 0
  · subst hj
    rw [shifted_zero, append_getElem?_of_lt hg.size_pos, hg.nan, hh.nan]
    rfl
  · have hpos := hg.size_pos
    rw [shifted_of_ne hj, append, Array.getElem?_append_right (by omega), Array.getElem?_map,
      Array.getElem?_extract]
    by_cases hlt : j < h.cells.size
    · rw [if_pos (by omega)]
      congr 2
      omega
    · rw [if_neg (by omega), Array.getElem?_eq_none (by omega)]

theorem append_cell_shifted (j : Nat) :
    (g.append h).cell (Cell.shifted g.cells.size j) = (h.cell j).shift g.cells.size := by
  simp only [cell, append_getElem?_shifted hg hh]
  cases h.cells[j]? <;> rfl

/-- Appending a plain graph to a plain graph gives a plain graph. -/
theorem Plain.append : (g.append h).Plain where
  nan := by rw [append_getElem?_of_lt hg.size_pos, hg.nan]
  scalars := by
    intro j es hj
    by_cases hlt : j < g.cells.size
    · rw [append_getElem?_of_lt hlt] at hj
      exact hg.scalars j es hj
    · have hj' : j = Cell.shifted g.cells.size (j + 1 - g.cells.size) := by
        rw [shifted_of_ne (by omega)]
        omega
      rw [hj', append_getElem?_shifted hg hh] at hj
      obtain ⟨c, hc, hshift⟩ := Option.map_eq_some_iff.1 hj
      cases c <;> simp only [Cell.shift, reduceCtorEq, Cell.scalar.injEq] at hshift
      subst hshift
      exact hh.scalars _ es hc

/-- The second graph unfolds at its shifted numbers as it did. -/
theorem append_tree_shifted :
    ∀ fuel j, (g.append h).tree fuel (Cell.shifted g.cells.size j) = h.tree fuel j
  | 0, _ => rfl
  | fuel + 1, j => by
    rw [tree_succ, tree_succ, append_cell_shifted hg hh]
    cases h.cell j <;> simp [Cell.shift, append_tree_shifted fuel]

/-- A cell of the second graph that reaches no cycle moves up whole: its containers are
shifted. -/
theorem Dag.shift {i : Nat} {S : List Nat} (hd : Dag h i S) :
    Dag (g.append h) (Cell.shifted g.cells.size i) (S.map (Cell.shifted g.cells.size)) := by
  induction hd with
  | @scalar i v hc =>
    refine .scalar (v := v) ?_
    rw [append_getElem?_shifted hg hh, hc]
    rfl
  | @node i c S hc hsc hkids hout ih =>
    have hS : ∀ j ∈ c.members, (g.append h).reach (Cell.shifted g.cells.size j) =
        (S j).map (Cell.shifted g.cells.size) := fun j hj => (ih j hj).reach_eq
    have hflat : (c.shift g.cells.size).members.flatMap (g.append h).reach =
        (c.members.flatMap S).map (Cell.shifted g.cells.size) := by
      rw [members_shift, List.flatMap_map, List.map_flatMap]
      exact List.flatMap_congr hS
    rw [List.map_cons, ← List.dedup_map_of_injective (shifted_injective hg.size_pos), ← hflat]
    refine .node _ ?_ (by rwa [isScalar_shift]) (fun j hj => ?_) fun j hj => ?_
    · rw [append_getElem?_shifted hg hh, hc]
      rfl
    · rw [members_shift] at hj
      obtain ⟨j0, hj0, rfl⟩ := List.mem_map.1 hj
      rw [hS j0 hj0]
      exact ih j0 hj0
    · rw [members_shift] at hj
      obtain ⟨j0, hj0, rfl⟩ := List.mem_map.1 hj
      rw [hS j0 hj0]
      intro hmem
      obtain ⟨x, hx, hxi⟩ := List.mem_map.1 hmem
      rw [shifted_injective hg.size_pos hxi] at hx
      exact hout j0 hj0 hx

/-- A cell of the second graph that reaches no cycle has the same value at its shifted
number. -/
theorem Dag.value_shifted {i : Nat} {S : List Nat} (hd : Dag h i S) :
    (g.append h).value (Cell.shifted g.cells.size i) = h.value i := by
  have hlen := hd.length_le
  have hpos := hg.size_pos
  rw [value, append_tree_shifted hg hh, hd.value_eq, hd.tree_eq _ (by rw [size_append]; omega)]

theorem exactKey_shifted (k : Nat) :
    (g.append h).exactKey (Cell.shifted g.cells.size k) = h.exactKey k := by
  unfold exactKey
  rw [append_getElem?_shifted hg hh]
  cases h.cells[k]? with
  | none => rfl
  | some c => cases c <;> rfl

theorem sameKey_shifted (a c : Nat) :
    (g.append h).sameKey (Cell.shifted g.cells.size a) (Cell.shifted g.cells.size c) =
      h.sameKey a c := by
  unfold sameKey
  rw [append_cell_shifted hg hh, append_cell_shifted hg hh]
  have hinj : (Cell.shifted g.cells.size a == Cell.shifted g.cells.size c) = (a == c) := by
    by_cases hac : a = c
    · simp [hac]
    · have hne : Cell.shifted g.cells.size a ≠ Cell.shifted g.cells.size c :=
        fun h' => hac (shifted_injective hg.size_pos h')
      simp [hac, hne]
  rw [hinj]
  cases h.cell a <;> cases h.cell c <;> rfl

/-- A spine of the second graph moves up whole: its maps and containers are shifted. -/
theorem Spine.shift {i : Nat} {Sp Lo : List Nat} (hs : Spine h i Sp Lo) :
    Spine (g.append h) (Cell.shifted g.cells.size i) (Sp.map (Cell.shifted g.cells.size))
      (Lo.map (Cell.shifted g.cells.size)) := by
  induction hs with
  | @leaf i S hd hm =>
    refine .leaf (Dag.shift hg hh hd) ?_
    unfold isMap at hm ⊢
    rw [append_cell_shifted hg hh]
    cases hc : h.cell i <;> simp_all [Cell.shift]
  | @map i es Sp Lo hc hkeys hpair hvals hout ih =>
    have hcell : (g.append h).cells[Cell.shifted g.cells.size i]? = some (.map (es.map fun e =>
        (Cell.shifted g.cells.size e.1, Cell.shifted g.cells.size e.2))) := by
      rw [append_getElem?_shifted hg hh, hc]
      rfl
    have hcan : ∀ e ∈ es, (g.append h).spineMaps (Cell.shifted g.cells.size e.2) =
        (Sp e.2).map (Cell.shifted g.cells.size) ∧
        (g.append h).leafCells (Cell.shifted g.cells.size e.2) =
          (Lo e.2).map (Cell.shifted g.cells.size) :=
      fun e he => (ih e he).canonical
    obtain ⟨hsp, hSm, hLo⟩ := IsSpine.of_map hcell
      (fun e he => by
        obtain ⟨e0, he0, rfl⟩ := List.mem_map.1 he
        rw [exactKey_shifted hg hh]
        exact hkeys e0 he0)
      (List.pairwise_map.2 (hpair.imp fun hac => by rw [sameKey_shifted hg hh]; exact hac))
      (fun e he => by
        obtain ⟨e0, he0, rfl⟩ := List.mem_map.1 he
        unfold IsSpine
        rw [(hcan e0 he0).1, (hcan e0 he0).2]
        exact ih e0 he0)
      (fun e he hmem => by
        obtain ⟨e0, he0, rfl⟩ := List.mem_map.1 he
        rw [(hcan e0 he0).1, (hcan e0 he0).2, ← List.map_append] at hmem
        obtain ⟨x, hx, hxi⟩ := List.mem_map.1 hmem
        rw [shifted_injective hg.size_pos hxi] at hx
        exact hout e0 he0 hx)
    have hmaps : (es.map fun e => (Cell.shifted g.cells.size e.1, Cell.shifted g.cells.size e.2)).flatMap
        (fun e => (g.append h).spineMaps e.2) = (es.flatMap fun e => Sp e.2).map (Cell.shifted g.cells.size) := by
      rw [List.flatMap_map, List.map_flatMap]
      exact List.flatMap_congr fun e he => (hcan e he).1
    have hleaves : (es.map fun e => (Cell.shifted g.cells.size e.1, Cell.shifted g.cells.size e.2)).flatMap
        (fun e => (g.append h).leafCells e.2) = (es.flatMap fun e => Lo e.2).map (Cell.shifted g.cells.size) := by
      rw [List.flatMap_map, List.map_flatMap]
      exact List.flatMap_congr fun e he => (hcan e he).2
    have hspine : Spine (g.append h) _ _ _ := hsp
    rw [hSm, hLo, hmaps, hleaves, ← List.map_cons] at hspine
    exact hspine

omit hg in
/-- The containers of a spine of the first graph and those of a shifted spine of the second are
apart: the first lie below the first graph's size, the second were not cell 0 and lie above. -/
theorem apart_append {b l : Nat} {Sb Lb Sl Ll : List Nat} (hb : Spine g b Sb Lb)
    (hl : Spine h l Sl Ll) : (Sb ++ Lb).Disjoint ((Sl ++ Ll).map (Cell.shifted g.cells.size)) := by
  intro x hx hy
  obtain ⟨y0, hy0, rfl⟩ := List.mem_map.1 hy
  obtain ⟨c, hc, -⟩ := hb.container _ hx
  have hx' := (Array.getElem?_eq_some_iff.1 hc).1
  have hy0' : y0 ≠ 0 := by
    rintro rfl
    obtain ⟨c', hc', hsc⟩ := hl.container 0 hy0
    rw [hh.nan] at hc'
    cases hc'
    cases hsc
  rw [shifted_of_ne hy0'] at hx'
  omega

end Shifted

/-! ## Layers of settings -/

/-- Cell `i` is a spine whose maps are each held once, by nothing else it reaches. -/
def IsExclusiveSpine (g : Graph) (i : Nat) : Prop := g.IsSpine i ∧ g.Exclusive i

instance (g : Graph) (i : Nat) : Decidable (g.IsExclusiveSpine i) :=
  inferInstanceAs (Decidable (_ ∧ _))

/-- A layer of settings: map cell `b` of a plain graph is a spine whose entries are `es`. -/
structure Layer (g : Graph) (b : Nat) (es : List (Value × Value)) : Prop where
  spine : g.IsSpine b
  value : g.value b = .map es
  plain : g.Plain

/-- The value of a spine holds, in every map along every path, exact keys no two of which are
one key. -/
theorem IsSpine.keysDistinct (hs : g.ScalarsPlain) {i : Nat} (hsp : g.IsSpine i) :
    (g.value i).KeysDistinct := by
  intro p
  induction p generalizing i with
  | nil =>
    -- the path ends at the spine's own map
    intro xs hxs
    have hv : g.value i = .map xs := Option.some.inj hxs
    obtain ⟨es, hc⟩ := Spine.map_of_value hsp hs hv
    obtain ⟨-, -, hkeys, hpair, -, -⟩ := Spine.eq_map hsp hc
    rw [Spine.value_map hsp hc, Value.map.injEq] at hv
    subst hv
    refine ⟨fun e he => ?_, List.pairwise_map.2 (hpair.imp_of_mem fun ha hb hab => ?_)⟩
    · obtain ⟨e0, he0, rfl⟩ := List.mem_map.1 he
      exact value_exactKey (hkeys e0 he0)
    · rw [← sameKey_eq (hkeys _ ha) (hkeys _ hb)]
      exact hab
  | cons q p ih =>
    -- the path goes on under key `q` of the spine's map, into the spine of that key's value
    intro xs hxs
    cases hv : g.value i with
    | map ys =>
      rw [hv, Value.at_map_cons] at hxs
      obtain ⟨w, hw, hq⟩ := Option.bind_eq_some_iff.1 hxs
      obtain ⟨es, hc⟩ := Spine.map_of_value hsp hs hv
      obtain ⟨-, -, -, -, hvals, -⟩ := Spine.eq_map hsp hc
      rw [Spine.value_map hsp hc, Value.map.injEq] at hv
      subst hv
      unfold lookupKey at hw
      obtain ⟨e, he, rfl⟩ := Option.map_eq_some_iff.1 hw
      obtain ⟨e0, he0, rfl⟩ := List.mem_map.1 (List.mem_of_find?_eq_some he)
      exact ih (hvals e0 he0) xs hq
    | _ => simp [hv, Value.at] at hxs

/-- What a merge in place leaves of a plain graph is a layer of the merged entries, exclusive
under `P`: cell 0 is no container, so it did not change. -/
theorem Merged.layer {g₁ : Graph} {b : Nat} {Xs Xl Z : List Nat} {P : Prop}
    {M : List (Value × Value)} (hm : Merged g g₁ b Xs Xl Z P M) (hp : g.Plain) :
    Layer g₁ b M ∧ (P → g₁.Exclusive b) := by
  obtain ⟨Y, -, hf⟩ := hm.frame
  have h0 : 0 ∉ Y := fun h0 => hf.before 0 h0 (.float Value.nan) (by rw [hp.nan]; rfl)
  exact ⟨⟨hm.spine, hm.value, ⟨by rw [hf.same 0 h0, hp.nan], hf.scalars hp.scalars⟩⟩,
    hm.exclusive⟩

/-- An exclusive layer and a layer appended to it can be merged in place, exclusive together
when the second is exclusive too. -/
theorem Layer.mergeable {b l : Nat} {B L : List (Value × Value)} {P : Prop} (hb : Layer g b B)
    (hbx : g.Exclusive b) (hl : Layer h l L) (hlx : P → h.Exclusive l) :
    Mergeable (g.append h) b (Cell.shifted g.cells.size l) P ∧ (g.append h).value b = .map B ∧
      (g.append h).value (Cell.shifted g.cells.size l) = .map L := by
  obtain ⟨hsb, hSb, hLb, hvb⟩ := IsSpine.append_left (h := h) hb.spine
  have hsl := Spine.shift hb.plain hl.plain hl.spine
  obtain ⟨hSl, hLl⟩ := hsl.canonical
  have happ := apart_append hl.plain hb.spine hl.spine
  rw [List.map_append] at happ
  have hinj := shifted_injective hb.plain.size_pos
  refine ⟨⟨hsb, hsl.isSpine, by rw [hSb]; exact hbx.1, ?_, (hb.plain.append hl.plain).scalars,
    fun hP => ?_⟩, by rw [hvb, hb.value], ?_⟩
  · rw [hSb, hLb, hSl, hLl, List.append_assoc]
    refine List.disjoint_append_right.2 ⟨hbx.2, fun x hx hy => happ (List.mem_append_left _ hx) hy⟩
  · rw [hSb, hLb, hSl, hLl]
    have hlx' := hlx hP
    refine ⟨List.nodup_append.2 ⟨hbx.1, hlx'.1.map hinj, fun x hx y hy hxy => ?_⟩, ?_⟩
    · subst hxy
      exact happ (List.mem_append_left _ hx) (List.mem_append_left _ hy)
    · intro x hx hy
      rcases List.mem_append.1 hx with hx | hx <;> rcases List.mem_append.1 hy with hy | hy
      · exact hbx.2 hx hy
      · exact happ (List.mem_append_left _ hx) (List.mem_append_right _ hy)
      · exact happ (List.mem_append_right _ hy) (List.mem_append_left _ hx)
      · exact List.disjoint_map hinj hlx'.2 hx hy
  · obtain ⟨S, hd, -⟩ := Spine.dag hl.spine
    rw [Dag.value_shifted hb.plain hl.plain hd, hl.value]

/-- A graph none of whose cells is a scalar map has plain scalars; this decides it for a graph
at hand. -/
theorem scalarsPlain_of_all (h : g.cells.all (fun c => !c.scalarMap) = true) : g.ScalarsPlain := by
  intro j es hj
  obtain ⟨hlt, hc⟩ := Array.getElem?_eq_some_iff.1 hj
  have hall := Array.all_eq_true.1 h j hlt
  rw [hc] at hall
  cases hall

theorem getElem?_of_cell_map {r : Nat} {es : List (Nat × Nat)} (h : g.cell r = .map es) :
    g.cells[r]? = some (.map es) := by
  unfold cell at h
  cases hc : g.cells[r]? with
  | none => rw [hc] at h; cases h
  | some c => rw [hc] at h; cases h; rfl

end Graph

/-! ## Reading a layer -/

/-- A settings file read into a layer gives a plain graph whose top cell is a map. -/
theorem readSettingsFile_map {f : Folder} {p shown : Text} {d : Nat} {g : Graph} {r : Nat}
    (h : readSettingsFile f p shown d = .ok (some (g, r))) :
    g.Plain ∧ ∃ es, g.cells[r]? = some (.map es) := by
  unfold readSettingsFile at h
  split at h
  · cases h
  · cases h
  · split at h
    · cases h
    · split at h
      · cases h
      · cases h
      · cases h
      · rename_i hy
        split at h
        · cases h
        · rename_i es hc
          cases h
          exact ⟨readYamlGraph_plain hy, es, Graph.getElem?_of_cell_map hc⟩
        · cases h

/-- A document that is neither a map nor empty is refused: a settings file holds a map. -/
theorem readSettingsFile_not_map {f : Folder} {p shown : Text} {d : Nat} {bytes : List UInt8}
    {text : Text} {g : Graph} {root : Nat} (hf : f.entry p = some (.file bytes))
    (ht : decodeUtf8 bytes = .ok text)
    (hy : readYamlGraph ⟨Text.normalizeNewlines text.points⟩ d = .ok (some (g, root)))
    (hnull : g.cell root ≠ .scalar .null) (hmap : ∀ es, g.cell root ≠ .map es) :
    readSettingsFile f p shown d = .error (SettingsError.notAMapping shown).failure := by
  unfold readSettingsFile
  rw [hf]
  dsimp only
  rw [ht]
  dsimp only
  rw [hy]
  dsimp only
  split
  · exact absurd ‹_› hnull
  · exact absurd ‹_› (hmap _)
  · rfl

/-- Every map the settings file at `p` is read into satisfies `Q`. -/
def ReadsAs (Q : Graph → Nat → Prop) (f : Folder) (p shown : Text) (depth : Nat) : Prop :=
  ∀ layer, readSettingsFile f p shown depth = .ok (some layer) → Q layer.1 layer.2

instance {Q : Graph → Nat → Prop} [∀ g i, Decidable (Q g i)] (f : Folder) (p shown : Text)
    (depth : Nat) : Decidable (ReadsAs Q f p shown depth) :=
  match h : readSettingsFile f p shown depth with
  | .ok (some layer) => decidable_of_iff (Q layer.1 layer.2) (by
      constructor
      · intro hl layer' h'
        rw [h, Except.ok.injEq, Option.some.injEq] at h'
        exact h' ▸ hl
      · intro hr
        exact hr layer h)
  | .ok none => isTrue fun layer h' => by rw [h] at h'; cases h'
  | .error _ => isTrue fun layer h' => by rw [h] at h'; cases h'

theorem ReadsAs.mono {Q Q' : Graph → Nat → Prop} {f : Folder} {p shown : Text} {d : Nat}
    (hr : ReadsAs Q f p shown d) (hQ : ∀ g i, Q g i → Q' g i) : ReadsAs Q' f p shown d :=
  fun layer h => hQ _ _ (hr layer h)

/-- A file read into a spine is a layer of the values of its map's entries. -/
theorem Graph.Layer.of_read {f : Folder} {p shown : Text} {d : Nat} {g : Graph} {r : Nat}
    (h : readSettingsFile f p shown d = .ok (some (g, r))) (hsp : g.IsSpine r) :
    Layer g r (g.pairValues (g.entries r)) := by
  obtain ⟨hp, es, hc⟩ := readSettingsFile_map h
  refine ⟨hsp, ?_, hp⟩
  rw [Spine.value_map hsp hc, entries_of_getElem? hc]

/-! ## Loading settings as merges of values -/

/-- Merges the entries of a later layer, none for an empty document, into settings loaded by a
routine at call depth `depth`: maps nested deeper than the calls left allow fail to merge, with
the recursion error. -/
def mergeSettings (depth : Nat) (base : List (Value × Value)) :
    Option (List (Value × Value)) → Except Failure (List (Value × Value))
  | none => .ok base
  | some later =>
    match mergeEntries (mergeRoom depth) base later with
    | some merged => .ok merged
    | none => .error (.of .recursion "maximum recursion depth exceeded while calling a Python object")

/-- The entries of the map of a settings file, as values; none for an empty document. -/
def settingsEntries (f : Folder) (p shown : Text) (depth : Nat) :
    Except Failure (Option (List (Value × Value))) :=
  (readSettingsFile f p shown depth).map
    (Option.map fun layer => layer.1.pairValues (layer.1.entries layer.2))

/-- The settings as merges of values: the defaults, merged with the map of the project file when
it exists, then with the map of the named file; a named file that does not exist is refused. -/
def mergedSettings (f : Folder) (named : Option Text) (depth : Nat) :
    Except Failure (List (Value × Value)) := do
  let merged ← match f.entry projectFile with
    | some _ =>
      settingsEntries f projectFile (f.absolute projectFile) (depth + 1) >>=
        mergeSettings depth defaultSettings
    | none => pure defaultSettings
  match named with
  | none => pure merged
  | some p =>
    match f.entry p with
    | none => throw (SettingsError.notFound p).failure
    | some _ => settingsEntries f p (Path.normalize p) (depth + 1) >>= mergeSettings depth merged

/-- Settings merged in place and settings merged as values agree: both failed with the same
failure, or the cell of the graph is a layer of the entries, exclusive under `P`. -/
def Holds (P : Prop) : Except Failure (Graph × Nat) → Except Failure (List (Value × Value)) → Prop
  | .ok (g, b), .ok es => Graph.Layer g b es ∧ (P → g.Exclusive b)
  | .error e, .error e' => e = e'
  | _, _ => False

theorem Holds.bind_eq {β : Type} {P : Prop} {x : Except Failure (Graph × Nat)}
    {y : Except Failure (List (Value × Value))} {k : Graph × Nat → Except Failure β}
    {k' : List (Value × Value) → Except Failure β} (h : Holds P x y)
    (hk : ∀ g b es, Graph.Layer g b es → (P → g.Exclusive b) → k (g, b) = k' es) :
    x >>= k = y >>= k' := by
  rcases x with e | ⟨g, b⟩ <;> rcases y with e' | es <;> simp only [Holds] at h
  · subst h
    rfl
  · exact hk g b es h.1 h.2

/-- The settings of a layer are its entries. -/
theorem Graph.Layer.settings {g : Graph} {b : Nat} {es : List (Value × Value)}
    (hl : Graph.Layer g b es) :
    (match (g.term b).shape with
      | .map es => pure es
      | _ => pure [] : Except Failure (List (Value × Value))) = pure es := by
  obtain ⟨S, hd, -⟩ := Spine.dag hl.spine
  rw [hd.term_eq_value, hl.value]
  rfl

/-- Merging a layer into an exclusive layer in place agrees with merging their entries; the
merged layer is exclusive under `P` when the later one is. -/
theorem mergeLayer_holds {depth : Nat} {g h : Graph} {b l : Nat} {B L : List (Value × Value)}
    {P : Prop} (hb : Graph.Layer g b B) (hbx : g.Exclusive b) (hl : Graph.Layer h l L)
    (hlx : P → h.Exclusive l) :
    Holds P (mergeLayer depth (g, b) (h, l)) (mergeSettings depth B (some L)) := by
  obtain ⟨hm, hB, hL⟩ := hb.mergeable hbx hl hlx
  have hagree := Graph.mergeInto_agree (mergeRoom depth) hm hB hL
  unfold mergeLayer mergeSettings
  dsimp only
  revert hagree
  cases mergeEntries (mergeRoom depth) B L <;>
    cases (g.append h).mergeInto (mergeRoom depth) b (Cell.shifted g.cells.size l) <;>
    intro hagree <;> simp only [Graph.Agree] at hagree
  · rfl
  · exact hagree.layer (hb.plain.append hl.plain)

/-- Reading a settings file and merging its layer in place agrees with merging its entries,
whatever follows. -/
theorem readLayer_bind_eq {β : Type} {P : Prop} {Q : Graph → Nat → Prop} {f : Folder}
    {p shown : Text} {depth : Nat} {acc : Graph × Nat} {A : List (Value × Value)}
    {k : Graph × Nat → Except Failure β} {k' : List (Value × Value) → Except Failure β}
    (hacc : Graph.Layer acc.1 acc.2 A) (haccx : acc.1.Exclusive acc.2)
    (hr : ReadsAs Q f p shown (depth + 1))
    (hQ : ∀ g i, Q g i → g.IsSpine i ∧ (P → g.Exclusive i))
    (hk : ∀ g b es, Graph.Layer g b es → (P → g.Exclusive b) → k (g, b) = k' es) :
    (readSettingsFile f p shown (depth + 1) >>= fun read => match read with
        | some layer => mergeLayer depth acc layer >>= k
        | none => pure acc >>= k) =
      (settingsEntries f p shown (depth + 1) >>= mergeSettings depth A) >>= k' := by
  unfold settingsEntries
  cases hread : readSettingsFile f p shown (depth + 1) with
  | error e => rfl
  | ok read =>
    cases read with
    | none => exact hk acc.1 acc.2 A hacc fun _ => haccx
    | some layer =>
      obtain ⟨hsp, hx⟩ := hQ _ _ (hr _ hread)
      exact Holds.bind_eq (mergeLayer_holds hacc haccx (Graph.Layer.of_read hread hsp) hx) hk

/-- Settings that are a layer and settings merged as values go on alike. -/
theorem pure_bind_eq {β : Type} {P : Prop} {acc : Graph × Nat} {A : List (Value × Value)}
    {k : Graph × Nat → Except Failure β} {k' : List (Value × Value) → Except Failure β}
    (hacc : Graph.Layer acc.1 acc.2 A) (haccx : acc.1.Exclusive acc.2)
    (hk : ∀ g b es, Graph.Layer g b es → (P → g.Exclusive b) → k (g, b) = k' es) :
    (pure acc >>= k) = (pure A >>= k') :=
  hk acc.1 acc.2 A hacc fun _ => haccx

/-- The defaults are an exclusive layer that holds `defaultSettings`. -/
theorem defaults_layer :
    Graph.Layer (Graph.empty.addValue [] (.map defaultSettings)).1
      (Graph.empty.addValue [] (.map defaultSettings)).2 defaultSettings ∧
    (Graph.empty.addValue [] (.map defaultSettings)).1.Exclusive
      (Graph.empty.addValue [] (.map defaultSettings)).2 :=
  ⟨{ spine := by decide +kernel
     value := by
      simp [Graph.addValue, defaultSettings, textKey, Graph.add, Graph.empty, Graph.value,
        Graph.tree, Graph.cell]
     plain := ⟨by simp [Graph.addValue, defaultSettings, textKey, Graph.add, Graph.empty],
      Graph.scalarsPlain_of_all (by decide +kernel)⟩ }, by decide +kernel⟩

/-- The entries read from a settings file that is a spine hold, in every map along every path,
exact keys no two of which are one key. -/
theorem settingsEntries_keysDistinct {f : Folder} {p shown : Text} {d : Nat}
    {L : List (Value × Value)} (hr : ReadsAs Graph.IsSpine f p shown d)
    (h : settingsEntries f p shown d = .ok (some L)) : (Value.map L).KeysDistinct := by
  unfold settingsEntries at h
  cases hread : readSettingsFile f p shown d with
  | error e => rw [hread] at h; cases h
  | ok read =>
    rw [hread] at h
    cases read with
    | none => cases h
    | some layer =>
      cases h
      have hl := Graph.Layer.of_read hread (hr _ hread)
      rw [← hl.value]
      exact hl.spine.keysDistinct hl.plain.scalars

/-- The law of each path of a merge of settings: a value that is no map stands at a path of
exact keys of the merged settings exactly when it stands there in the later layer, or the later
layer has nothing there and only maps above it, and the earlier layer has the value there. -/
theorem mergeSettings_at {depth : Nat} {B L M : List (Value × Value)}
    (hL : (Value.map L).KeysDistinct) (h : mergeSettings depth B (some L) = .ok M)
    (path : List Value) (hpath : ∀ q ∈ path, q.exactKey = true) (v : Value)
    (hv : ∀ es, v ≠ .map es) :
    (Value.map M).at path = some v ↔ (Value.map L).at path = some v ∨
      ((Value.map L).at path = none ∧ (Value.map L).Clear path ∧
        (Value.map B).at path = some v) := by
  simp only [mergeSettings] at h
  split at h
  · rename_i hm
    cases h
    exact mergeEntries_at path hpath _ B L _ hL hm v hv
  · cases h

/-- **Loading settings merges values.** When the project file is read into an exclusive spine and
the named file into a spine, loading the settings gives the defaults merged with the project
file's map, then with the named file's map, as `mergeEntries` merges values; it fails as that
merge does, and as reading does. -/
theorem loadSettings_eq_merged (f : Folder) (named : Option Text) (depth : Nat)
    (hp : ReadsAs Graph.IsExclusiveSpine f projectFile (f.absolute projectFile) (depth + 1))
    (hn : ∀ p, named = some p → ReadsAs Graph.IsSpine f p (Path.normalize p) (depth + 1)) :
    loadSettings f named depth = mergedSettings f named depth := by
  unfold loadSettings mergedSettings
  dsimp only
  -- with a project file or without, the named file is merged into an exclusive layer
  cases f.entry projectFile <;>
    [refine pure_bind_eq (P := True) defaults_layer.1 defaults_layer.2 ?_;
      refine readLayer_bind_eq (P := True) defaults_layer.1 defaults_layer.2 hp
        (fun _ _ hq => ⟨hq.1, fun _ => hq.2⟩) ?_]
  all_goals
    intro g b es hl hx
    cases named with
    | none => exact hl.settings
    | some p =>
      dsimp only
      cases f.entry p with
      | none => rfl
      | some _ =>
        exact (readLayer_bind_eq (P := False) hl (hx trivial) (hn p rfl)
          (fun _ _ hq => ⟨hq, False.elim⟩) fun _ _ _ h _ => h.settings).trans (bind_pure _)

/-- The bytes of an ASCII text. -/
def asciiBytes (s : String) : List UInt8 := s.toList.map fun c => c.toNat.toUInt8

/-- A working directory whose project file holds a map, a number and a list under a whole-number
key, and whose file `cfg.yaml` holds one map under two keys, through an alias, keyed by a text
and a truth value. -/
def layeredFolder : Folder :=
  ⟨Text.ofString "/cwd", [(projectFile, .file (asciiBytes "a: \x7bx: 1\x7d\nb: 2\n3: [1, 2]\n")),
    (Text.ofString "cfg.yaml", .file (asciiBytes "a: &m \x7by: 2, true: 3\x7d\nc: *m\n"))]⟩

/-- A working directory whose project file holds one map under two keys, through an alias, and
whose file `cfg.yaml` merges a map under one of them. -/
def aliasedFolder : Folder :=
  ⟨Text.ofString "/cwd", [(projectFile, .file (asciiBytes "a: &m \x7bx: 1\x7d\nb: *m\n")),
    (Text.ofString "cfg.yaml", .file (asciiBytes "a: \x7by: 2\x7d\n"))]⟩

end BlockPlan
