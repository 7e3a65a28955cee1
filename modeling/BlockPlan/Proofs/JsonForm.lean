import BlockPlan.Proofs.JsonText
import BlockPlan.Proofs.Traversal

/-!
# What the JSON form of a value is made of

A value whose texts hold only code points below `0x110000` (`Value.ValidText`, as every text
read from a file is) has a JSON form whose strings and keys are `Json.AllJoined`
(`Value.allJoined_toJsonWithin`), so that its spaced text tells it apart from every other such
form. A JSON form found strictly, with doubles that are no number refused, is the JSON form found
when they are allowed (`Value.toJsonWithin_lenient`): the strict form differs only by failing.
-/

namespace BlockPlan

/-- Every text in a value is made of code points below `0x110000`. -/
inductive Value.ValidText : Value → Prop
  | null : Value.ValidText .null
  | bool (b : Bool) : Value.ValidText (.bool b)
  | int (n : Int) : Value.ValidText (.int n)
  | float (x : Float) : Value.ValidText (.float x)
  | str {s : Text} : (∀ c ∈ s.points, c < 0x110000) → Value.ValidText (.str s)
  | bytes (data : List UInt8) : Value.ValidText (.bytes data)
  | date (iso : String) : Value.ValidText (.date iso)
  | stamp (iso : String) : Value.ValidText (.stamp iso)
  | list {xs : List Value} : (∀ x ∈ xs, Value.ValidText x) → Value.ValidText (.list xs)
  | tuple {xs : List Value} : (∀ x ∈ xs, Value.ValidText x) → Value.ValidText (.tuple xs)
  | map {kvs : List (Value × Value)} : (∀ kv ∈ kvs, Value.ValidText kv.1) →
      (∀ kv ∈ kvs, Value.ValidText kv.2) → Value.ValidText (.map kvs)
  | set {xs : List Value} : (∀ x ∈ xs, Value.ValidText x) → Value.ValidText (.set xs)
  | frozenset {xs : List Value} : (∀ x ∈ xs, Value.ValidText x) → Value.ValidText (.frozenset xs)
  | object (kind : String) : Value.ValidText (.object kind)
  | knot (id : Nat) {body : Value} : Value.ValidText body → Value.ValidText (.knot id body)
  | back (id : Nat) : Value.ValidText (.back id)

theorem char_toNat_lt (ch : Char) : ch.toNat < 0x110000 := by
  have hvalid := ch.valid
  simp only [Nat.isValidChar, UInt32.isValidChar] at hvalid
  have htoNat : ch.toNat = ch.val.toNat := rfl
  omega

theorem ofString_points_lt (s : String) : ∀ c ∈ (Text.ofString s).points, c < 0x110000 := by
  intro c hc
  obtain ⟨ch, -, rfl⟩ := List.mem_map.1 hc
  exact char_toNat_lt ch

/-- The text of a map key is made of valid code points. -/
theorem keyText_points_lt (lenient : Bool) (k : Value) (kt : Text) (hk : k.ValidText)
    (h : keyText lenient k = .ok kt) : ∀ c ∈ kt.points, c < 0x110000 := by
  cases k with
  | str s =>
    cases h
    cases hk with
    | str hs => exact hs
  | float x =>
    simp only [keyText] at h
    split at h
    · cases h
      exact ofString_points_lt _
    · cases h
  | bool b =>
    cases h
    cases b <;> exact ofString_points_lt _
  | null =>
    cases h
    exact ofString_points_lt _
  | int n =>
    simp only [keyText] at h
    split at h
    · cases h
    · cases h
      unfold Json.intText
      split <;> exact ofString_points_lt _
  | bytes _ | date _ | stamp _ | list _ | tuple _ | map _ | set _ | frozenset _ | object _
  | knot _ _ | back _ => cases h

/-- Every entry after a put is an entry before it or holds the new key or the new value. -/
theorem mem_putEntry {κ α : Type} [BEq κ] (entries : List (κ × α)) (k : κ) (v : α)
    (P : κ → Prop) (Q : α → Prop) (hentries : ∀ e ∈ entries, P e.1 ∧ Q e.2) (hk : P k)
    (hv : Q v) : ∀ e ∈ putEntry entries k v, P e.1 ∧ Q e.2 := by
  unfold putEntry
  split
  · intro e he
    obtain ⟨e', he', rfl⟩ := List.mem_map.1 he
    split
    · exact ⟨(hentries e' he').1, hv⟩
    · exact hentries e' he'
  · intro e he
    rcases List.mem_append.1 he with he | he
    · exact hentries e he
    · rw [List.mem_singleton.1 he]
      exact ⟨hk, hv⟩

theorem mem_of_sortedKeys (fuel : Nat) (xs : List Value) (keyed : List (Text × Value))
    (h : (xs.mapM fun x => (fun j => (Json.write .spaced j, x)) <$> x.toJsonWithin true fuel) =
      .ok keyed) :
    ∀ p ∈ keyed.mergeSort (fun a b => Text.le a.1 b.1), p.2 ∈ xs := by
  intro p hp
  obtain ⟨x, hx, hpx⟩ := exists_mem_of_mapM_ok _ _ _ h p ((List.mergeSort_perm _ _).mem_iff.1 hp)
  obtain ⟨j, -, rfl⟩ := (map_eq_ok_iff _ _ _).1 hpx
  exact hx

/-- The elements of a set, met in the order of their keys, give joined JSON forms when each
element does. -/
theorem allJoined_sortedKeys (lenient : Bool) (fuel : Nat) (xs : List Value)
    (keyed : List (Text × Value)) (js : List Json)
    (hkeys : (xs.mapM fun x => (fun j => (Json.write .spaced j, x)) <$> x.toJsonWithin true fuel) =
      .ok keyed)
    (hjs : (keyed.mergeSort fun a b => Text.le a.1 b.1).mapM
      (fun p => p.2.toJsonWithin lenient fuel) = .ok js)
    (helem : ∀ x ∈ xs, ∀ j, x.toJsonWithin lenient fuel = .ok j → Json.AllJoined j) :
    ∀ j ∈ js, Json.AllJoined j := by
  intro j hj
  obtain ⟨p, hp, hpj⟩ := exists_mem_of_mapM_ok _ _ _ hjs j hj
  exact helem p.2 (mem_of_sortedKeys fuel xs keyed hkeys p hp) j hpj

/-- The JSON form of a value with valid text has joined strings and keys. -/
theorem Value.allJoined_toJsonWithin (lenient : Bool) (fuel : Nat) (v : Value) :
    ∀ j, v.toJsonWithin lenient fuel = .ok j → v.ValidText → Json.AllJoined j := by
  fun_induction Value.toJsonWithin lenient fuel v with
  | case1 =>
    intro j h _
    cases h
    exact .null
  | case2 =>
    intro j h _
    cases h
    exact .bool _
  | case3 | case6 | case8 | case9 | case10 | case11 | case13 | case14 =>
    intro j h _
    cases h
  | case4 =>
    intro j h _
    cases h
    exact .int _
  | case5 =>
    intro j h _
    cases h
    exact .float _
  | case7 _ _ s =>
    intro j h hv
    cases h
    cases hv with
    | str hs => exact .str (Json.joined_fuse s hs)
  | case12 _ _ _ body ih =>
    intro j h hv
    cases hv with
    | knot _ hb => exact ih j h hb
  | case15 _ _ xs ih =>
    intro j h hv
    obtain ⟨js, hjs, rfl⟩ := (map_eq_ok_iff _ _ _).1 h
    cases hv with
    | list hxs =>
      refine .arr fun j' hj' => ?_
      obtain ⟨x, hx, hfx⟩ := exists_mem_of_mapM_ok _ _ _ hjs j' hj'
      exact ih x j' hfx (hxs x hx)
  | case16 _ _ xs ih =>
    intro j h hv
    obtain ⟨js, hjs, rfl⟩ := (map_eq_ok_iff _ _ _).1 h
    cases hv with
    | tuple hxs =>
      refine .arr fun j' hj' => ?_
      obtain ⟨x, hx, hfx⟩ := exists_mem_of_mapM_ok _ _ _ hjs j' hj'
      exact ih x j' hfx (hxs x hx)
  | case17 lenient _ kvs step ih =>
    intro j h hv
    obtain ⟨fields, hfields, hj⟩ := (bind_eq_ok_iff _ _ _).1 h
    cases hj
    cases hv with
    | map hk hval =>
      have hmembers := foldlM_invariant step (fun acc => ∀ e ∈ acc, Json.Joined e.1 ∧ Json.AllJoined e.2)
        kvs (fun acc entry acc' hentry hacc hstep => by
          obtain ⟨kt, hkt, hrest⟩ := (bind_eq_ok_iff _ _ _).1 hstep
          obtain ⟨j', hj', hput⟩ := (bind_eq_ok_iff _ _ _).1 hrest
          cases hput
          exact mem_putEntry acc kt.fuse j' _ _ hacc
            (Json.joined_fuse kt (keyText_points_lt lenient _ kt (hk entry hentry) hkt))
            (ih entry j' hj' (hval entry hentry)))
        [] fields nofun hfields
      exact .obj (fun f hf => (hmembers f hf).1) (fun f hf => (hmembers f hf).2)
  | case18 _ _ xs _ ih1 =>
    intro j h hv
    simp only [bind_pure_comp] at h
    obtain ⟨keyed, hkeys, hsorted⟩ := (bind_eq_ok_iff _ _ _).1 h
    obtain ⟨js, hjs, rfl⟩ := (map_eq_ok_iff _ _ _).1 hsorted
    cases hv with
    | set hxs =>
      exact .arr (allJoined_sortedKeys _ _ xs keyed js hkeys hjs
        fun x hx j' hj' => ih1 x j' hj' (hxs x hx))
  | case19 _ _ xs _ ih1 =>
    intro j h hv
    simp only [bind_pure_comp] at h
    obtain ⟨keyed, hkeys, hsorted⟩ := (bind_eq_ok_iff _ _ _).1 h
    obtain ⟨js, hjs, rfl⟩ := (map_eq_ok_iff _ _ _).1 hsorted
    cases hv with
    | frozenset hxs =>
      exact .arr (allJoined_sortedKeys _ _ xs keyed js hkeys hjs
        fun x hx j' hj' => ih1 x j' hj' (hxs x hx))

theorem keyText_lenient (lenient : Bool) (k : Value) (kt : Text)
    (h : keyText lenient k = .ok kt) : keyText true k = .ok kt := by
  cases k with
  | float x =>
    simp only [keyText] at h ⊢
    split at h
    · rw [if_pos (by simp)]
      exact h
    · cases h
  | str _ | bool _ | null | int _ | bytes _ | date _ | stamp _ | list _ | tuple _ | map _ | set _
  | frozenset _ | object _ | knot _ _ | back _ => exact h

/-- A JSON form found strictly is the JSON form found when doubles that are no number are
allowed: the two differ only in refusing such doubles. -/
theorem Value.toJsonWithin_lenient (lenient : Bool) (fuel : Nat) (v : Value) :
    ∀ j, v.toJsonWithin lenient fuel = .ok j → v.toJsonWithin true fuel = .ok j := by
  fun_induction Value.toJsonWithin lenient fuel v with
  | case1 =>
    intro j h
    rw [Value.toJsonWithin_null]
    exact h
  | case2 =>
    intro j h
    rw [Value.toJsonWithin_bool]
    exact h
  | case4 _ _ n hlong =>
    intro j h
    rw [Value.toJsonWithin_int, if_neg hlong]
    exact h
  | case7 =>
    intro j h
    rw [Value.toJsonWithin_str]
    exact h
  | case3 | case6 | case8 | case9 | case10 | case11 | case13 | case14 =>
    intro j h
    cases h
  | case5 =>
    intro j h
    rw [Value.toJsonWithin_float, if_pos (by simp)]
    exact h
  | case12 _ _ _ body ih =>
    intro j h
    rw [Value.toJsonWithin_knot]
    exact ih j h
  | case15 _ _ xs ih =>
    intro j h
    obtain ⟨js, hjs, rfl⟩ := (map_eq_ok_iff _ _ _).1 h
    rw [Value.toJsonWithin_list_succ, mapM_ok_of_imp _ _ xs js (fun x _ b hb => ih x b hb) hjs]
    rfl
  | case16 _ _ xs ih =>
    intro j h
    obtain ⟨js, hjs, rfl⟩ := (map_eq_ok_iff _ _ _).1 h
    rw [Value.toJsonWithin_tuple_succ, mapM_ok_of_imp _ _ xs js (fun x _ b hb => ih x b hb) hjs]
    rfl
  | case17 lenient fuel kvs step ih =>
    intro j h
    obtain ⟨fields, hfields, hj⟩ := (bind_eq_ok_iff _ _ _).1 h
    cases hj
    rw [Value.toJsonWithin_map_succ]
    -- each entry is found as it was, its key by `keyText_lenient` and its value by induction
    have hstep : ∀ entry ∈ kvs, ∀ acc acc', step acc entry = .ok acc' →
        (do
          let kt ← keyText true entry.1
          let j ← entry.2.toJsonWithin true fuel
          pure (putEntry acc kt.fuse j) : Except EncodeError _) = .ok acc' := by
      intro entry _ acc acc' hacc
      obtain ⟨kt, hkt, hrest⟩ := (bind_eq_ok_iff _ _ _).1 hacc
      obtain ⟨j', hj', hput⟩ := (bind_eq_ok_iff _ _ _).1 hrest
      rw [keyText_lenient lenient _ kt hkt]
      simp only [bind, Except.bind, ih entry j' hj']
      exact hput
    rw [foldlM_ok_of_imp step _ kvs hstep [] fields hfields]
    rfl
  | case18 _ _ xs _ ih1 =>
    intro j h
    simp only [bind_pure_comp] at h
    obtain ⟨keyed, hkeys, hsorted⟩ := (bind_eq_ok_iff _ _ _).1 h
    obtain ⟨js, hjs, rfl⟩ := (map_eq_ok_iff _ _ _).1 hsorted
    rw [Value.toJsonWithin_set, hkeys]
    simp only [bind, Except.bind]
    rw [mapM_ok_of_imp _ _ _ js (fun p _ b hb => ih1 p.2 b hb) hjs]
    rfl
  | case19 _ _ xs _ ih1 =>
    intro j h
    simp only [bind_pure_comp] at h
    obtain ⟨keyed, hkeys, hsorted⟩ := (bind_eq_ok_iff _ _ _).1 h
    obtain ⟨js, hjs, rfl⟩ := (map_eq_ok_iff _ _ _).1 hsorted
    rw [Value.toJsonWithin_frozenset, Value.toJsonWithin_set, hkeys]
    simp only [bind, Except.bind]
    rw [mapM_ok_of_imp _ _ _ js (fun p _ b hb => ih1 p.2 b hb) hjs]
    rfl

end BlockPlan
