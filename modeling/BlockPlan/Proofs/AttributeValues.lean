import BlockPlan.Proofs.ChildGroups

/-!
# The planned values of one map of attribute values

`marshalValues kind vals` encodes the entries of a map one by one, in map order, after leaving
out the `count` of a resource or module block (`keptEntries`); a block without values has no
planned values. Its outcome is fixed by the first kept entry whose value has no JSON form
(`marshalAttributes_outcome`):

* with no such entry, the planned values are the kept entries, keys as given and each value in
  its JSON form;
* when that entry's value is nested too deep, the failure is that of the depth, whatever the
  entries after it hold;
* otherwise the failure is a failure to write the plan that names the entry's key, the kind of
  the block and why the value has no JSON form (`attributeFailure`).

Keys may be of any kind: only a key that is the text `count` is ever left out.
-/

namespace BlockPlan

variable {κ : Type} [AttributeKey κ]

/-- Whether a key is left out of the planned values of a block of a kind: the `count` of a
resource or module block. -/
def SkippedKey (kind : Text) (k : κ) : Prop :=
  (kind = resourceKind ∨ kind = moduleKind) ∧ AttributeKey.isName k "count" = true

instance (kind : Text) (k : κ) : Decidable (SkippedKey kind k) :=
  inferInstanceAs (Decidable (_ ∧ _))

/-- The entries of a map that are encoded, in order. -/
def keptEntries (kind : Text) (vals : List (κ × Value)) : List (κ × Value) :=
  vals.filter fun e => !decide (SkippedKey kind e.1)

/-- How the value under a key fails to be encoded: nested too deep as such, anything else as a
failure to write the plan that names the key and the kind of the block. -/
def attributeFailure (kind : Text) (k : κ) (e : EncodeError) : Failure :=
  if e = .tooDeep then .of .recursion (Text.ofString e.message)
  else
    .of .planSerialization
      (Text.ofString "cannot encode attribute '" ++ AttributeKey.display k ++ Text.ofString "' of " ++
        kind ++ Text.ofString " block: " ++ Text.ofString e.message)

/-- Among keys that are values, only the text `count` is left out, and only for resources and
modules. -/
theorem skippedKey_value_iff (kind : Text) (k : Value) :
    SkippedKey kind k ↔ (kind = resourceKind ∨ kind = moduleKind) ∧ k = .str "count" := by
  unfold SkippedKey
  rw [show AttributeKey.isName k "count" = k.eqv (.str "count") from rfl, Value.eqv_str_iff]

theorem skipsCount_iff (kind : Text) :
    skipsCount kind = true ↔ kind = resourceKind ∨ kind = moduleKind := by
  simp [skipsCount]

theorem marshalValues_eq_mapM (kind : Text) (vals : List (κ × Value)) :
    marshalValues kind vals =
      (keptEntries kind vals).mapM fun e => (e.1, ·) <$> marshalEntry kind e.1 e.2 := by
  unfold marshalValues keptEntries
  congr 2
  funext e
  -- the code's test on `skipsCount` is the decision of `SkippedKey`
  have hskip : (skipsCount kind && AttributeKey.isName e.1 "count") =
      decide (SkippedKey kind e.1) := by
    rw [Bool.eq_iff_iff, Bool.and_eq_true, skipsCount_iff, decide_eq_true_iff]
    rfl
  rw [hskip]

/-! ## One entry -/

theorem mapError_map {ε ε' α β : Type} (F : ε → ε') (f : α → β) (x : Except ε α) :
    (f <$> x).mapError F = f <$> x.mapError F := by
  cases x <;> rfl

theorem mapError_mapM {ε ε' α β : Type} (F : ε → ε') (g : α → Except ε β) (l : List α) :
    (l.mapM g).mapError F = l.mapM fun a => (g a).mapError F := by
  induction l with
  | nil => rfl
  | cons a l ih =>
    rw [List.mapM_cons, List.mapM_cons, ← ih]
    cases g a with
    | error e => rfl
    | ok b => cases l.mapM g <;> rfl

theorem map_eq_error_iff {ε α β : Type} (f : α → β) (x : Except ε α) (e : ε) :
    f <$> x = .error e ↔ x = .error e := by
  cases x <;> simp [Functor.map, Except.map]

theorem mapError_eq_ok_iff {ε ε' α : Type} (F : ε → ε') (x : Except ε α) (a : α) :
    x.mapError F = .ok a ↔ x = .ok a := by
  cases x <;> simp

theorem marshalEntry_eq_ok_iff (kind : Text) (k : κ) (v : Value) (j : Json) :
    marshalEntry kind k v = .ok j ↔ v.toJson = .ok j := by
  unfold marshalEntry
  cases v.toJson with
  | ok j' => simp
  | error e => cases e <;> simp

theorem marshalEntry_failure_iff (kind : Text) (k : κ) (v : Value) (f : Failure) :
    (marshalEntry kind k v).mapError MarshalError.failure = .error f ↔
      ∃ e, v.toJson = .error e ∧ f = attributeFailure kind k e := by
  unfold marshalEntry
  cases v.toJson with
  | ok j => simp
  | error e =>
    cases e <;>
      simp [MarshalError.failure, MarshalError.message, attributeFailure, eq_comm]

/-! ## A whole map -/

/-- The planned values of a map are its kept entries, keys as given and values in JSON form. -/
theorem marshalValues_eq_ok_iff (kind : Text) (vals : List (κ × Value)) (m : List (κ × Json)) :
    marshalValues kind vals = .ok m ↔
      List.Forall₂ (fun e r => r.1 = e.1 ∧ e.2.toJson = .ok r.2) (keptEntries kind vals) m := by
  rw [marshalValues_eq_mapM, mapM_eq_ok_iff_forall₂]
  have hentry : ∀ (e : κ × Value) (r : κ × Json),
      (e.1, ·) <$> marshalEntry kind e.1 e.2 = .ok r ↔ r.1 = e.1 ∧ e.2.toJson = .ok r.2 := by
    rintro ⟨k, v⟩ ⟨k', j⟩
    rw [map_eq_ok_iff]
    constructor
    · rintro ⟨j', hj', hkj⟩
      cases hkj
      exact ⟨rfl, (marshalEntry_eq_ok_iff _ _ _ _).1 hj'⟩
    · rintro ⟨rfl, hj⟩
      exact ⟨j, (marshalEntry_eq_ok_iff _ _ _ j).2 hj, rfl⟩
  exact ⟨fun h => h.imp fun {e r} => (hentry e r).1, fun h => h.imp fun {e r} => (hentry e r).2⟩

/-- A map fails with the failure of the first kept entry whose value has no JSON form. -/
theorem marshalValues_failure_iff (kind : Text) (vals : List (κ × Value)) (f : Failure) :
    (marshalValues kind vals).mapError MarshalError.failure = .error f ↔
      ∃ pre k v post e, keptEntries kind vals = pre ++ (k, v) :: post ∧
        (∀ x ∈ pre, ∃ j, x.2.toJson = .ok j) ∧ v.toJson = .error e ∧
        f = attributeFailure kind k e := by
  rw [marshalValues_eq_mapM, mapError_mapM, mapM_eq_error_iff]
  simp only [mapError_map]
  constructor
  · rintro ⟨pre, ⟨k, v⟩, post, hsplit, hpre, hfail⟩
    obtain ⟨e, he, rfl⟩ := (marshalEntry_failure_iff kind k v f).1 ((map_eq_error_iff _ _ _).1 hfail)
    refine ⟨pre, k, v, post, e, hsplit, fun x hx => ?_, he, rfl⟩
    obtain ⟨r, hr⟩ := hpre x hx
    obtain ⟨j, hj, -⟩ := (map_eq_ok_iff _ _ _).1 hr
    exact ⟨j, (marshalEntry_eq_ok_iff kind x.1 x.2 j).1 ((mapError_eq_ok_iff _ _ _).1 hj)⟩
  · rintro ⟨pre, k, v, post, e, hsplit, hpre, he, rfl⟩
    refine ⟨pre, (k, v), post, hsplit, fun x hx => ?_, ?_⟩
    · obtain ⟨j, hj⟩ := hpre x hx
      refine ⟨(x.1, j), (map_eq_ok_iff _ _ _).2 ⟨j, ?_, rfl⟩⟩
      rw [mapError_eq_ok_iff, marshalEntry_eq_ok_iff]
      exact hj
    · rw [(marshalEntry_failure_iff kind k v _).2 ⟨e, he, rfl⟩]
      rfl

/-- **Planned values of a map of attribute values.** A block without values has none. Otherwise
the first kept entry (all but the `count` of a resource or module, in map order) whose value
has no JSON form decides the failure: nested too deep as such, anything else naming its key,
the kind of the block and the cause. With no such entry, the planned values are the kept
entries, keys unchanged and in order, each value in its JSON form. -/
theorem marshalAttributes_outcome (kind : Text) (values : Option (List (κ × Value))) :
    (values.mapM (marshalValues kind) = .ok none ↔ values = none) ∧
    (∀ m, values.mapM (marshalValues kind) = .ok (some m) ↔
      ∃ vals, values = some vals ∧
        List.Forall₂ (fun e r => r.1 = e.1 ∧ e.2.toJson = .ok r.2) (keptEntries kind vals) m) ∧
    (∀ f, (values.mapM (marshalValues kind)).mapError MarshalError.failure = .error f ↔
      ∃ vals, values = some vals ∧ ∃ pre k v post e, keptEntries kind vals = pre ++ (k, v) :: post ∧
        (∀ x ∈ pre, ∃ j, x.2.toJson = .ok j) ∧ v.toJson = .error e ∧
        f = attributeFailure kind k e) := by
  cases values with
  | none => simp [Option.mapM, pure, Except.pure]
  | some vals =>
    have hsome : (some vals).mapM (marshalValues kind) = some <$> marshalValues kind vals := by
      simp [Option.mapM]
    refine ⟨?_, fun m => ?_, fun f => ?_⟩
    · rw [hsome]
      cases marshalValues kind vals <;> simp [Functor.map, Except.map]
    · rw [hsome, map_eq_ok_iff]
      simp [marshalValues_eq_ok_iff]
    · rw [hsome, mapError_map, map_eq_error_iff, marshalValues_failure_iff]
      simp

end BlockPlan
