import BlockPlan.Proofs.ReadBack

/-!
# A value's JSON form is its written text read back

The JSON form of a value (`Value.toJson`) is defined directly. It can also be found by writing
the value as JSON text and reading the text back. `Value.writtenText` is the text the standard
writer gives: text outside ASCII escaped, a comma and a blank between items, a colon and a blank
after each key. The writer keeps text as it stands, and writes every entry of a map under its
key text, however many entries share one (`Value.writtenWithin`). Reading the text back joins
the surrogate pairs that the escapes spell, and puts a later member in place of an earlier one
of the same key.

For a value whose text is valid and whose sets hold hashable elements, as every value a program
builds does, the two ways agree (`readJson_writtenText`). Either both fail, with the same first
error, or reading the written text gives the value of the JSON form:

    (fun t => readJson t room) <$> v.writtenText = (fun j => .ok j.toValue) <$> v.toJson

Sets are the delicate case. Their elements are sorted by their written text, so the written text
of a hashable element must be the text of its JSON form (`Value.write_writtenWithin`). That holds
because a hashable value holds no map, and escaped text does not see whether surrogate pairs
are joined (`quote_fuse`).
-/

namespace BlockPlan

/-! ## Computations compared through views -/

section Views

variable {ε α β γ δ σ τ : Type}

/-- Two computations that fail alike and agree on one view of their results agree on any view
that the first one determines. -/
theorem map_eq_map_of_view {x : Except ε α} {y : Except ε β} {f : α → γ} {g : β → γ}
    (h : f <$> x = g <$> y) {F : α → δ} {G : β → δ}
    (hv : ∀ a b, x = .ok a → y = .ok b → f a = g b → F a = G b) : F <$> x = G <$> y := by
  cases x <;> cases y <;> simp only [Functor.map, Except.map, Except.error.injEq,
    Except.ok.injEq, reduceCtorEq] at h ⊢
  · exact h
  · exact hv _ _ rfl rfl h

/-- Binding keeps agreement: the first steps agree on a view, and the continuations agree for
results with equal views. -/
theorem map_bind_eq_of_view {x : Except ε α} {y : Except ε β} {f : α → γ} {g : β → γ}
    (h : f <$> x = g <$> y) {k : α → Except ε σ} {l : β → Except ε τ} {F : σ → δ} {G : τ → δ}
    (hk : ∀ a b, x = .ok a → y = .ok b → f a = g b → F <$> k a = G <$> l b) :
    F <$> (x >>= k) = G <$> (y >>= l) := by
  cases x <;> cases y <;> simp only [Functor.map, Except.map, Except.error.injEq,
    Except.ok.injEq, reduceCtorEq] at h
  · subst h
    rfl
  · exact hk _ _ rfl rfl h

theorem map_mapM_eq_of_view (f : α → Except ε β) (g : α → Except ε γ) (F : β → δ) (G : γ → δ)
    (l : List α) (h : ∀ a ∈ l, F <$> f a = G <$> g a) :
    List.map F <$> l.mapM f = List.map G <$> l.mapM g := by
  induction l with
  | nil => rfl
  | cons a l ih =>
    rw [List.mapM_cons, List.mapM_cons]
    refine map_bind_eq_of_view (h a List.mem_cons_self) fun b c _ _ hbc => ?_
    refine map_bind_eq_of_view (ih fun a' ha' => h a' (List.mem_cons_of_mem a ha'))
      fun bs cs _ _ hbcs => ?_
    show Except.ok (F b :: bs.map F) = .ok (G c :: cs.map G)
    rw [hbc, hbcs]

/-- Folds whose steps agree on a view, from states with equal views, agree on the view of the
state they end in. -/
theorem map_foldlM_eq_of_view (f : σ → α → Except ε σ) (g : τ → α → Except ε τ) (F : σ → δ)
    (G : τ → δ) (l : List α) (h : ∀ s t, F s = G t → ∀ a ∈ l, F <$> f s a = G <$> g t a) :
    ∀ s t, F s = G t → F <$> l.foldlM f s = G <$> l.foldlM g t := by
  induction l with
  | nil =>
    intro s t hst
    show Except.ok (F s) = .ok (G t)
    rw [hst]
  | cons a l ih =>
    intro s t hst
    rw [List.foldlM_cons, List.foldlM_cons]
    refine map_bind_eq_of_view (h s t hst a List.mem_cons_self) fun s' t' _ _ hst' => ?_
    exact ih (fun s t hst a ha => h s t hst a (List.mem_cons_of_mem _ ha)) s' t' hst'

/-- Arrays whose items two traversals give alike on a view are alike on any view of arrays that
the views of their items determine. -/
theorem map_arr_mapM_eq_of_view {F : Json → δ} {G : Json → δ} {F' : Json → γ} {G' : Json → γ}
    (hcongr : ∀ {items items'}, items.map F = items'.map G → F' (.arr items) = G' (.arr items'))
    (f g : α → Except ε Json) (l : List α) (h : ∀ a ∈ l, F <$> f a = G <$> g a) :
    F' <$> (Json.arr <$> l.mapM f) = G' <$> (Json.arr <$> l.mapM g) := by
  rw [Functor.map_map, Functor.map_map]
  exact map_eq_map_of_view (map_mapM_eq_of_view f g F G l h) fun _ _ _ _ hab => hcongr hab

end Views

/-! ## Written text -/

/-- Joining surrogate pairs, then splitting code points into code units, gives the code units of
the text. -/
theorem flatMap_codeUnits_fuseList (l : List Nat) :
    (Text.fuseList l).flatMap Json.codeUnits = l.flatMap Json.codeUnits := by
  fun_induction Text.fuseList l with
  | case1 => rfl
  | case2 c => rfl
  | case3 a b rest hpair ih =>
    simp only [isHighSurrogate, isLowSurrogate, Bool.and_eq_true, decide_eq_true_eq] at hpair
    have hsplit : Json.codeUnits (0x10000 + (a - 0xD800) * 0x400 + (b - 0xDC00)) = [a, b] := by
      unfold Json.codeUnits
      rw [if_neg (by omega)]
      simp only [List.cons.injEq, and_true]
      constructor <;> omega
    have ha : Json.codeUnits a = [a] := if_pos (by omega)
    have hb : Json.codeUnits b = [b] := if_pos (by omega)
    rw [List.flatMap_cons, hsplit, ih, List.flatMap_cons, List.flatMap_cons, ha, hb]
    rfl
  | case4 a b rest _ ih => rw [List.flatMap_cons, ih, ← List.flatMap_cons]

/-- Valid text is escaped in ASCII alike whether its surrogate pairs are joined or not: a joined
pair is escaped as the pair. -/
theorem quote_fuse (t : Text) (ht : t.Valid) : Json.quote true t.fuse = Json.quote true t := by
  have hpoints : t.fuse.points.flatMap (Json.escapePoint true) =
      t.points.flatMap (Json.escapePoint true) :=
    calc t.fuse.points.flatMap (Json.escapePoint true)
        = (t.fuse.points.flatMap Json.codeUnits).flatMap (Json.escapePoint true) :=
          Json.flatMap_escapePoint t.fuse (Json.joined_fuse t ht)
      _ = (t.points.flatMap Json.codeUnits).flatMap (Json.escapePoint true) := by
          show ((Text.fuseList t.points).flatMap Json.codeUnits).flatMap _ = _
          rw [flatMap_codeUnits_fuseList]
      _ = t.points.flatMap (Json.escapePoint true) := by
          rw [List.flatMap_assoc]
          exact List.flatMap_congr fun c hc => (Json.escapePoint_codeUnits c (ht c hc)).symm
  unfold Json.quote
  rw [hpoints]

theorem Text.eq_of_points {t t' : Text} (h : t.points = t'.points) : t = t' := by
  cases t
  cases t'
  cases h
  rfl

/-- Array items written alike are written alike together. -/
theorem renderItems_congr (st : Json.Style) (level : Nat) :
    ∀ items items' : List Json,
      items.map (Json.render st level) = items'.map (Json.render st level) →
        Json.renderItems st level items = Json.renderItems st level items' := by
  have hstep : ∀ (x y : Json) (zs : List Json), Json.renderItems st level (x :: y :: zs) =
      Json.render st level x ++ Json.separator st level ++ Json.renderItems st level (y :: zs) :=
    fun _ _ _ => rfl
  intro items
  induction items with
  | nil =>
    intro items' h
    cases items' with
    | nil => rfl
    | cons _ _ => cases h
  | cons j rest ih =>
    intro items' h
    cases items' with
    | nil => cases h
    | cons j' rest' =>
      simp only [List.map_cons, List.cons.injEq] at h
      obtain ⟨hj, hrest⟩ := h
      cases rest with
      | nil =>
        cases rest' with
        | nil => exact hj
        | cons _ _ => cases hrest
      | cons k ks =>
        cases rest' with
        | nil => cases hrest
        | cons k' ks' => rw [hstep, hstep, hj, ih _ hrest]

theorem write_spaced_arr_congr {items items' : List Json}
    (h : items.map (Json.write .spaced) = items'.map (Json.write .spaced)) :
    Json.write .spaced (.arr items) = Json.write .spaced (.arr items') := by
  have hpoints : (Json.render .spaced 0 (.arr items)).points =
      (Json.render .spaced 0 (.arr items')).points := by
    rw [Json.render_spaced_arr, Json.render_spaced_arr, renderItems_congr .spaced 0 items items' h]
  exact Text.eq_of_points hpoints

/-! ## Reading members back -/

/-- Putting an entry commutes with a map of the values. -/
theorem map_putEntry {κ α β : Type} [BEq κ] (h : α → β) (acc : List (κ × α)) (k : κ) (v : α) :
    (putEntry acc k v).map (fun e => (e.1, h e.2)) =
      putEntry (acc.map fun e => (e.1, h e.2)) k (h v) := by
  have hany : (acc.map fun e => (e.1, h e.2)).any (fun e => e.1 == k) =
      acc.any (fun e => e.1 == k) := by
    simp [List.any_map, Function.comp_def]
  unfold putEntry
  rw [hany]
  split
  · rw [List.map_map, List.map_map]
    refine List.map_congr_left fun e _ => ?_
    by_cases he : (e.1 == k) = true <;> simp [he]
  · simp

theorem readFields_append_one (ascii : Bool) (k : Text) (j : Json) :
    ∀ (fields : List (Text × Json)) (acc : List (Text × Value)),
      Json.readFields ascii (fields ++ [(k, j)]) acc =
        putEntry (Json.readFields ascii fields acc) (Json.readText ascii k) (Json.readBack ascii j) := by
  intro fields
  induction fields with
  | nil => intro acc; rfl
  | cons f fields ih =>
    intro acc
    obtain ⟨k', j'⟩ := f
    exact ih _

/-! ## The written form of a value -/

/-- The JSON value the standard writer writes for a value, within `fuel` nested containers. It is
`Value.toJsonWithin` but for two things: text and keys stand as they are, their surrogate pairs
unjoined, and every entry of a map is written under its key text, in order, however many
entries share one. The elements of a set are sorted by their own written text. -/
def Value.writtenWithin (lenient : Bool) (fuel : Nat) (v : Value) : Except EncodeError Json :=
  match fuel, v with
  | _, .null => .ok .null
  | _, .bool b => .ok (.bool b)
  | _, .int n => if Numeral.exceedsDigitLimit n then .error .longWhole else .ok (.int n)
  | _, .float x => if x.isFinite || lenient then .ok (.float x) else .error .notFinite
  | _, .str s => .ok (.str s)
  | _, .bytes _ => .error (.unsupported "bytes")
  | _, .date _ => .error (.unsupported "date")
  | _, .stamp _ => .error (.unsupported "datetime")
  | _, .object k => .error (.unsupported k)
  | fuel, .knot _ body => writtenWithin lenient fuel body
  | 0, _ => .error .tooDeep
  | _ + 1, .back _ => .error .circular
  | fuel + 1, .list xs => .arr <$> xs.mapM fun x => writtenWithin lenient fuel x
  | fuel + 1, .tuple xs => .arr <$> xs.mapM fun x => writtenWithin lenient fuel x
  | fuel + 1, .map kvs =>
    .obj <$> kvs.foldlM (fun acc entry => do
      let kt ← keyText lenient entry.1
      let j ← writtenWithin lenient fuel entry.2
      pure (acc ++ [(kt, j)])) []
  | fuel + 1, .set xs | fuel + 1, .frozenset xs =>
    (xs.mapM fun x => (fun j => (Json.write .spaced j, x)) <$> writtenWithin true fuel x) >>=
      fun keyed => .arr <$> (keyed.mergeSort fun a b => Text.le a.1 b.1).mapM
        fun p => writtenWithin lenient fuel p.2
termination_by (fuel, sizeOf v)
decreasing_by
  all_goals first
    | exact Prod.Lex.left _ _ (by omega)
    | exact Prod.Lex.right _ (by simp only [Value.knot.sizeOf_spec]; omega)

/-- The text the standard writer gives for a value, doubles that are no number refused: text
outside ASCII escaped, a comma and a blank between items, a colon and a blank after keys. -/
def Value.writtenText (v : Value) : Except EncodeError Text :=
  Json.write .spaced <$> v.writtenWithin false depthLimit

/-- Every set and frozen set in the value, at any depth, holds hashable elements only, as the
sets a program builds do. -/
inductive Value.SetsHashable : Value → Prop
  | null : Value.SetsHashable .null
  | bool (b : Bool) : Value.SetsHashable (.bool b)
  | int (n : Int) : Value.SetsHashable (.int n)
  | float (x : Float) : Value.SetsHashable (.float x)
  | str (s : Text) : Value.SetsHashable (.str s)
  | bytes (data : List UInt8) : Value.SetsHashable (.bytes data)
  | date (iso : String) : Value.SetsHashable (.date iso)
  | stamp (iso : String) : Value.SetsHashable (.stamp iso)
  | object (kind : String) : Value.SetsHashable (.object kind)
  | back (id : Nat) : Value.SetsHashable (.back id)
  | list {xs : List Value} : (∀ x ∈ xs, Value.SetsHashable x) → Value.SetsHashable (.list xs)
  | tuple {xs : List Value} : (∀ x ∈ xs, Value.SetsHashable x) → Value.SetsHashable (.tuple xs)
  | map {kvs : List (Value × Value)} : (∀ kv ∈ kvs, Value.SetsHashable kv.2) →
      Value.SetsHashable (.map kvs)
  | set {xs : List Value} : (∀ x ∈ xs, x.hashable = true) → (∀ x ∈ xs, Value.SetsHashable x) →
      Value.SetsHashable (.set xs)
  | frozenset {xs : List Value} : (∀ x ∈ xs, x.hashable = true) →
      (∀ x ∈ xs, Value.SetsHashable x) → Value.SetsHashable (.frozenset xs)
  | knot (id : Nat) {body : Value} : Value.SetsHashable body → Value.SetsHashable (.knot id body)

@[simp] theorem Value.hashable_tuple (xs : List Value) :
    (Value.tuple xs).hashable = true ↔ ∀ x ∈ xs, x.hashable = true := by
  rw [Value.hashable]
  simp

@[simp] theorem Value.hashable_knot (id : Nat) (body : Value) :
    (Value.knot id body).hashable = body.hashable := by
  rw [Value.hashable]

/-- With no fuel left, the JSON form of a value that is no scalar and no knot is nested too
deep. -/
theorem Value.toJsonWithin_zero_of_ne (lenient : Bool) (v : Value) (hnull : v = .null → False)
    (hbool : ∀ b, v = .bool b → False) (hint : ∀ n, v = .int n → False)
    (hfloat : ∀ x, v = .float x → False) (hstr : ∀ s, v = .str s → False)
    (hbytes : ∀ d, v = .bytes d → False) (hdate : ∀ s, v = .date s → False)
    (hstamp : ∀ s, v = .stamp s → False) (hobject : ∀ k, v = .object k → False)
    (hknot : ∀ id body, v = .knot id body → False) :
    v.toJsonWithin lenient 0 = .error .tooDeep := by
  cases v <;> simp_all

theorem snd_mem_of_keyed {ε α : Type} {c : Value → Except ε α} {key : α → Text} {xs : List Value}
    {keyed : List (Text × Value)} (h : xs.mapM (fun x => (fun j => (key j, x)) <$> c x) = .ok keyed)
    (p : Text × Value) (hp : p ∈ keyed.mergeSort fun a b => Text.le a.1 b.1) : p.2 ∈ xs := by
  rw [List.mem_mergeSort] at hp
  obtain ⟨x, hx, hfx⟩ := exists_mem_of_mapM_ok _ _ _ h p hp
  obtain ⟨j, -, rfl⟩ := (map_eq_ok_iff _ _ _).1 hfx
  exact hx

theorem mapM_keyed_eq {ε α β : Type} (f : Value → Except ε α) (g : Value → Except ε β)
    (key : α → Text) (key' : β → Text) (xs : List Value)
    (h : ∀ x ∈ xs, key <$> f x = key' <$> g x) :
    xs.mapM (fun x => (fun j => (key j, x)) <$> f x) =
      xs.mapM (fun x => (fun j => (key' j, x)) <$> g x) := by
  have hkeyed := map_mapM_eq_of_view (fun x => (fun j => (key j, x)) <$> f x)
    (fun x => (fun j => (key' j, x)) <$> g x) id id xs fun x hx => by
      rw [id_map, id_map]
      exact map_eq_map_of_view (h x hx) fun a b _ _ hab => congrArg (fun t => (t, x)) hab
  simpa using hkeyed

/-! ## Hashable values are written as their JSON form -/

/-- A hashable value is written with the text of its JSON form, or both fail alike: it holds no
map, and escaped text does not see whether surrogate pairs are joined. -/
theorem Value.write_writtenWithin (lenient : Bool) (fuel : Nat) (v : Value) :
    v.hashable = true → v.SetsHashable → v.ValidText →
      Json.write .spaced <$> v.writtenWithin lenient fuel =
        Json.write .spaced <$> v.toJsonWithin lenient fuel := by
  fun_induction Value.writtenWithin lenient fuel v with
  | case1 | case2 | case8 | case9 | case10 | case11 =>
    intro _ _ _
    simp
  | case3 _ _ n hlong | case4 _ _ n hlong =>
    intro _ _ _
    simp [hlong]
  | case5 _ _ x hfinite | case6 _ _ x hfinite =>
    intro _ _ _
    simp [hfinite]
  | case7 _ _ s =>
    intro _ _ hv
    cases hv with
    | str hs =>
      rw [Value.toJsonWithin_str]
      show Except.ok (Json.quote true s) = .ok (Json.quote true s.fuse)
      rw [quote_fuse s hs]
  | case12 _ _ _ body ih =>
    intro hh hs hv
    cases hs with
    | knot _ hs =>
      cases hv with
      | knot _ hv =>
        rw [Value.toJsonWithin_knot]
        exact ih (by simpa using hh) hs hv
  | case13 _ v h1 h2 h3 h4 h5 h6 h7 h8 h9 h10 =>
    intro _ _ _
    rw [Value.toJsonWithin_zero_of_ne _ v h1 h2 h3 h4 h5 h6 h7 h8 h9 h10]
  | case14 | case15 | case17 | case18 =>
    intro hh _ _
    simp [Value.hashable] at hh
  | case16 _ fuel xs ih =>
    intro hh hs hv
    cases hs with
    | tuple hs =>
      cases hv with
      | tuple hv =>
        rw [Value.toJsonWithin_tuple_succ]
        exact map_arr_mapM_eq_of_view write_spaced_arr_congr _ _ xs fun x hx =>
          ih x ((Value.hashable_tuple xs).1 hh x hx) (hs x hx) (hv x hx)
  | case19 _ fuel xs ih2 ih1 =>
    intro _ hs hv
    cases hs with
    | frozenset hh hs =>
      cases hv with
      | frozenset hv =>
        rw [Value.toJsonWithin_frozenset, Value.toJsonWithin_set]
        -- the elements are keyed alike, so they are sorted alike
        rw [mapM_keyed_eq _ _ _ _ xs fun x hx => ih2 x (hh x hx) (hs x hx) (hv x hx)]
        cases hkeyed : xs.mapM fun x =>
            (fun j => (Json.write .spaced j, x)) <$> x.toJsonWithin true fuel with
        | error e => rfl
        | ok keyed =>
          show Json.write .spaced <$> (Json.arr <$> _) = Json.write .spaced <$> (Json.arr <$> _)
          refine map_arr_mapM_eq_of_view write_spaced_arr_congr _ _ _ fun p hp => ?_
          have hx := snd_mem_of_keyed hkeyed p hp
          exact ih1 p (hh p.2 hx) (hs p.2 hx) (hv p.2 hx)

/-! ## Reading the written form back -/

theorem readBack_arr_eq {items : List Json} {items' : List Json}
    (h : items.map (Json.readBack true) = items'.map Json.toValue) :
    Json.readBack true (.arr items) = (Json.arr items').toValue := by
  rw [Json.readBack, Json.toValue, Json.readItems_eq, Json.itemsToValues_eq, h]

/-- Reading the written form of a value back gives the value of its JSON form, or both fail
alike. -/
theorem Value.readBack_writtenWithin (lenient : Bool) (fuel : Nat) (v : Value) :
    v.SetsHashable → v.ValidText →
      Json.readBack true <$> v.writtenWithin lenient fuel =
        Json.toValue <$> v.toJsonWithin lenient fuel := by
  fun_induction Value.writtenWithin lenient fuel v with
  | case1 | case2 | case8 | case9 | case10 | case11 =>
    intro _ _
    simp [Json.readBack, Json.toValue]
  | case3 _ _ n hlong | case4 _ _ n hlong =>
    intro _ _
    simp [hlong, Json.readBack, Json.toValue]
  | case5 _ _ x hfinite | case6 _ _ x hfinite =>
    intro _ _
    simp [hfinite, Json.readBack, Json.toValue]
  | case7 _ _ s =>
    intro _ _
    rw [Value.toJsonWithin_str]
    rfl
  | case12 _ _ _ body ih =>
    intro hs hv
    cases hs with
    | knot _ hs =>
      cases hv with
      | knot _ hv =>
        rw [Value.toJsonWithin_knot]
        exact ih hs hv
  | case13 _ v h1 h2 h3 h4 h5 h6 h7 h8 h9 h10 =>
    intro _ _
    rw [Value.toJsonWithin_zero_of_ne _ v h1 h2 h3 h4 h5 h6 h7 h8 h9 h10]
    rfl
  | case14 =>
    intro _ _
    rw [Value.toJsonWithin_back_succ]
    rfl
  | case15 _ fuel xs ih | case16 _ fuel xs ih =>
    intro hs hv
    obtain ⟨hs, hv⟩ : (∀ x ∈ xs, x.SetsHashable) ∧ ∀ x ∈ xs, x.ValidText := by
      cases hs
      cases hv
      exact ⟨‹_›, ‹_›⟩
    simp only [Value.toJsonWithin_list_succ, Value.toJsonWithin_tuple_succ]
    exact map_arr_mapM_eq_of_view readBack_arr_eq _ _ xs fun x hx => ih x (hs x hx) (hv x hx)
  | case17 lenient fuel kvs ih =>
    intro hs hv
    cases hs with
    | map hs =>
      cases hv with
      | map _ hv =>
        rw [Value.toJsonWithin_map_succ, Functor.map_map, Functor.map_map]
        -- the members read so far are the members put so far, with their values read
        refine map_eq_map_of_view (map_foldlM_eq_of_view _ _ (fun acc => Json.readFields true acc [])
          (fun acc : List (Text × Json) => acc.map fun e => (e.1, e.2.toValue)) kvs ?_ [] [] rfl)
          fun a b _ _ hab => ?_
        · intro s t hst e he
          refine map_bind_eq_of_view (rfl : id <$> keyText lenient e.1 = id <$> keyText lenient e.1)
            fun kt kt' _ _ hkt => ?_
          cases hkt
          refine map_bind_eq_of_view (ih e (hs e he) (hv e he)) fun j c _ _ hjc => ?_
          show Except.ok (Json.readFields true (s ++ [(kt, j)]) []) =
            .ok ((putEntry t kt.fuse c).map fun e => (e.1, e.2.toValue))
          rw [readFields_append_one, map_putEntry, ← hst, hjc]
          rfl
        · simp only [Json.readBack, Json.toValue, Json.fieldsToEntries_eq, hab, List.map_map]
          rfl
  | case18 _ fuel xs ih2 ih1 | case19 _ fuel xs ih2 ih1 =>
    intro hs hv
    obtain ⟨hh, hs, hv⟩ : (∀ x ∈ xs, x.hashable = true) ∧ (∀ x ∈ xs, x.SetsHashable) ∧
        ∀ x ∈ xs, x.ValidText := by
      cases hs
      cases hv
      exact ⟨‹_›, ‹_›, ‹_›⟩
    simp only [Value.toJsonWithin_frozenset, Value.toJsonWithin_set]
    -- the hashable elements are keyed alike, so they are sorted alike
    rw [mapM_keyed_eq _ _ _ _ xs fun x hx =>
      Value.write_writtenWithin true fuel x (hh x hx) (hs x hx) (hv x hx)]
    cases hkeyed : xs.mapM fun x =>
        (fun j => (Json.write .spaced j, x)) <$> x.toJsonWithin true fuel with
    | error e => rfl
    | ok keyed =>
      show Json.readBack true <$> (Json.arr <$> _) = Json.toValue <$> (Json.arr <$> _)
      refine map_arr_mapM_eq_of_view readBack_arr_eq _ _ _ fun p hp => ?_
      have hx := snd_mem_of_keyed hkeyed p hp
      exact ih1 p (hs p.2 hx) (hv p.2 hx)

/-! ## The written text is read back whole -/

/-- What reading a JSON value back from its text needs: finite doubles and whole numbers of at
most `digitLimit` digits, valid text, and room for its nesting. -/
structure Json.ReadableWithin (room : Nat) (j : Json) : Prop where
  readable : j.Readable
  valid : j.ValidText
  depth : j.depth ≤ room

theorem Json.depthItems_le {items : List Json} {n : Nat} (h : ∀ j ∈ items, j.depth ≤ n) :
    Json.depthItems items ≤ n := by
  induction items with
  | nil => exact Nat.zero_le n
  | cons j rest ih =>
    exact max_le (h j List.mem_cons_self) (ih fun k hk => h k (List.mem_cons_of_mem j hk))

theorem Json.depthFields_le {fields : List (Text × Json)} {n : Nat}
    (h : ∀ f ∈ fields, f.2.depth ≤ n) : Json.depthFields fields ≤ n := by
  induction fields with
  | nil => exact Nat.zero_le n
  | cons f rest ih =>
    obtain ⟨k, j⟩ := f
    exact max_le (h (k, j) List.mem_cons_self) (ih fun g hg => h g (List.mem_cons_of_mem _ hg))

theorem Json.ReadableWithin.arr {room : Nat} {items : List Json}
    (h : ∀ j ∈ items, j.ReadableWithin room) : (Json.arr items).ReadableWithin (room + 1) :=
  ⟨.arr fun j hj => (h j hj).readable, .arr fun j hj => (h j hj).valid,
    Nat.succ_le_succ (Json.depthItems_le fun j hj => (h j hj).depth)⟩

theorem Json.ReadableWithin.obj {room : Nat} {fields : List (Text × Json)}
    (hk : ∀ f ∈ fields, f.1.Valid) (h : ∀ f ∈ fields, f.2.ReadableWithin room) :
    (Json.obj fields).ReadableWithin (room + 1) :=
  ⟨.obj fun f hf => (h f hf).readable, .obj hk fun f hf => (h f hf).valid,
    Nat.succ_le_succ (Json.depthFields_le fun f hf => (h f hf).depth)⟩

/-- The written form of a value with valid text, doubles that are no number refused, reads back
with room for as many containers as the writer was given fuel for. -/
theorem Value.readableWithin_writtenWithin (lenient : Bool) (fuel : Nat) (v : Value) :
    lenient = false → v.ValidText → ∀ j, v.writtenWithin lenient fuel = .ok j →
      j.ReadableWithin fuel := by
  fun_induction Value.writtenWithin lenient fuel v with
  | case1 =>
    intro _ _ j h
    cases h
    exact ⟨.null, .null, Nat.zero_le _⟩
  | case2 _ _ b =>
    intro _ _ j h
    cases h
    exact ⟨.bool b, .bool b, Nat.zero_le _⟩
  | case3 | case6 | case8 | case9 | case10 | case11 | case13 | case14 =>
    intro _ _ j h
    cases h
  | case4 _ _ n hlong =>
    intro _ _ j h
    cases h
    exact ⟨.int (Bool.of_not_eq_true hlong), .int n, Nat.zero_le _⟩
  | case5 _ _ x hfinite =>
    intro hl _ j h
    cases h
    subst hl
    exact ⟨.float (by simpa using hfinite), .float x, Nat.zero_le _⟩
  | case7 _ _ s =>
    intro _ hv j h
    cases h
    cases hv with
    | str hs => exact ⟨.str s, .str hs, Nat.zero_le _⟩
  | case12 _ _ _ body ih =>
    intro hl hv j h
    cases hv with
    | knot _ hv => exact ih hl hv j h
  | case15 _ fuel xs ih | case16 _ fuel xs ih =>
    intro hl hv j h
    have hxs : ∀ x ∈ xs, x.ValidText := by
      cases hv
      assumption
    obtain ⟨js, hjs, rfl⟩ := (map_eq_ok_iff _ _ _).1 h
    refine .arr fun j' hj' => ?_
    obtain ⟨x, hx, hfx⟩ := exists_mem_of_mapM_ok _ _ _ hjs j' hj'
    exact ih x hl (hxs x hx) j' hfx
  | case17 lenient fuel kvs ih =>
    intro hl hv j h
    obtain ⟨fields, hfields, rfl⟩ := (map_eq_ok_iff _ _ _).1 h
    cases hv with
    | map hk hval =>
      have hmembers := foldlM_invariant _
        (fun acc : List (Text × Json) => ∀ f ∈ acc, f.1.Valid ∧ f.2.ReadableWithin fuel) kvs
        (fun acc entry acc' hentry hacc hstep => by
          obtain ⟨kt, hkt, hrest⟩ := (bind_eq_ok_iff _ _ _).1 hstep
          obtain ⟨j', hj', hput⟩ := (bind_eq_ok_iff _ _ _).1 hrest
          cases hput
          intro f hf
          rcases List.mem_append.1 hf with hf | hf
          · exact hacc f hf
          · rw [List.mem_singleton.1 hf]
            exact ⟨keyText_points_lt lenient _ kt (hk entry hentry) hkt,
              ih entry hl (hval entry hentry) j' hj'⟩)
        [] fields (fun _ h => nomatch h) hfields
      exact .obj (fun f hf => (hmembers f hf).1) fun f hf => (hmembers f hf).2
  | case18 _ fuel xs _ ih | case19 _ fuel xs _ ih =>
    intro hl hv j h
    have hxs : ∀ x ∈ xs, x.ValidText := by
      cases hv
      assumption
    obtain ⟨keyed, hkeyed, hsorted⟩ := (bind_eq_ok_iff _ _ _).1 h
    obtain ⟨js, hjs, rfl⟩ := (map_eq_ok_iff _ _ _).1 hsorted
    refine .arr fun j' hj' => ?_
    obtain ⟨p, hp, hpj⟩ := exists_mem_of_mapM_ok _ _ _ hjs j' hj'
    exact ih p hl (hxs p.2 (snd_mem_of_keyed hkeyed p hp)) j' hpj

/-- Writing a value as text and reading the text back gives the value of its JSON form, for a
value whose text is valid and whose sets hold hashable elements, given room for the nesting the
writer allows; a value with no JSON form fails to be written, with the error its JSON form
fails with. -/
theorem readJson_writtenText (v : Value) (hv : v.ValidText) (hsets : v.SetsHashable)
    (room : Nat) (hroom : depthLimit ≤ room) :
    (fun t => readJson t room) <$> v.writtenText = (fun j => .ok j.toValue) <$> v.toJson := by
  unfold Value.writtenText Value.toJson
  rw [Functor.map_map]
  refine map_eq_map_of_view (Value.readBack_writtenWithin false depthLimit v hsets hv)
    fun r c hr _ hrc => ?_
  have hfit := Value.readableWithin_writtenWithin false depthLimit v rfl hv r hr
  rw [Json.readJson_write Json.Style.plain_spaced r hfit.readable hfit.valid room
    (hfit.depth.trans hroom)]
  exact congrArg Except.ok hrc

/-- A map whose keys `1` and `"1"` share one text, the later entry holding a set. -/
def mergedKeysValue : Value :=
  .map [(.int 1, .str "x"), (.str "1", .set [.str "b", .str "a"])]

theorem merged_keys_read_back :
    mergedKeysValue.ValidText ∧ mergedKeysValue.SetsHashable ∧
      (fun t => readJson t depthLimit) <$> mergedKeysValue.writtenText =
        (fun j => .ok j.toValue) <$> mergedKeysValue.toJson := by
  have hstr : ∀ s : String, (Value.str s).ValidText := fun s => .str (Text.valid_ofString s)
  have hv : mergedKeysValue.ValidText := by
    refine .map (fun kv hkv => ?_) fun kv hkv => ?_
    · simp only [List.mem_cons, List.not_mem_nil, or_false] at hkv
      rcases hkv with rfl | rfl
      · exact .int 1
      · exact hstr "1"
    · simp only [List.mem_cons, List.not_mem_nil, or_false] at hkv
      rcases hkv with rfl | rfl
      · exact hstr "x"
      · refine .set fun x hx => ?_
        simp only [List.mem_cons, List.not_mem_nil, or_false] at hx
        rcases hx with rfl | rfl
        · exact hstr "b"
        · exact hstr "a"
  have hs : mergedKeysValue.SetsHashable := by
    have helems : ∀ x ∈ [Value.str "b", .str "a"], x.hashable = true ∧ x.SetsHashable := by
      intro x hx
      simp only [List.mem_cons, List.not_mem_nil, or_false] at hx
      rcases hx with rfl | rfl <;> exact ⟨by simp [Value.hashable], .str _⟩
    refine .map fun kv hkv => ?_
    simp only [List.mem_cons, List.not_mem_nil, or_false] at hkv
    rcases hkv with rfl | rfl
    · exact .str _
    · exact .set (fun x hx => (helems x hx).1) fun x hx => (helems x hx).2
  exact ⟨hv, hs, readJson_writtenText mergedKeysValue hv hs depthLimit le_rfl⟩

end BlockPlan
