import BlockPlan.Settings

/-!
# Merging maps of values

`mergeEntries` merges the entries of a later map into an earlier one, key after key: where both
hold a map under a key those maps merge, and otherwise the later value takes the key's place.
It is how settings layers combine, said of values rather than of cells shared in a graph; merging
more levels deep than its fuel fails.

Keys are compared as the maps compare them (`Value.eqv`). Among keys that are none, truth
values, whole numbers, texts, bytes, dates and times (`Value.exactKey`) that comparison is an
equivalence, whole numbers and truth values by their number (`Value.eqv_congr_of_exactKey`,
`Value.eqv_of_eqv_of_eqv`). Floating numbers are left out: their comparison is the machine's.

What a merged map holds along a path of such keys (`Value.at`) is said by the layers alone
(`mergeEntries_at`): a value that is no map is the later layer's when the later layer holds it,
and otherwise the earlier layer's, unless the later layer holds something other than a map on
the way. The later layer must key its maps by such keys, each once (`Value.KeysDistinct`), as a
map read from a document without floating keys does.
-/

namespace BlockPlan

/-- Merges the entries `later` into `base`, key after key: where both hold a map under a key those
maps merge, and otherwise the later value takes the key's place in `base`. Merging deeper than
`fuel` levels of maps fails. -/
def mergeEntries : Nat → List (Value × Value) → List (Value × Value) →
    Option (List (Value × Value))
  | 0, _, _ => none
  | fuel + 1, base, later =>
    later.foldlM (fun base e =>
      match lookupKey base e.1, e.2 with
      | some (.map xs), .map ys =>
        (mergeEntries fuel xs ys).map fun m => Value.insertEntry base e.1 (.map m)
      | _, _ => some (Value.insertEntry base e.1 e.2)) base

/-- Merges one entry of a later map into `base`. -/
def mergeEntry (fuel : Nat) (base : List (Value × Value)) (e : Value × Value) :
    Option (List (Value × Value)) :=
  match lookupKey base e.1, e.2 with
  | some (.map xs), .map ys =>
    (mergeEntries fuel xs ys).map fun m => Value.insertEntry base e.1 (.map m)
  | _, _ => some (Value.insertEntry base e.1 e.2)

theorem mergeEntries_succ (fuel : Nat) (base later : List (Value × Value)) :
    mergeEntries (fuel + 1) base later = later.foldlM (mergeEntry fuel) base := rfl

/-! ## Keys compared exactly -/

/-- Whether a value is a key that maps compare exactly: none, a truth value, a whole number,
text, bytes, a date or a date with time. -/
def Value.exactKey : Value → Bool
  | .null | .bool _ | .int _ | .str _ | .bytes _ | .date _ | .stamp _ => true
  | _ => false

theorem Value.eqv_comm_of_exactKey {a : Value} (ha : a.exactKey = true) (b : Value) :
    a.eqv b = b.eqv a := by
  cases a <;> simp only [Value.exactKey, Bool.false_eq_true] at ha <;> cases b <;>
    simp only [Value.eqv] <;> rw [Bool.eq_iff_iff] <;> simp <;> exact eq_comm

theorem Value.eqv_self_of_exactKey {a : Value} (ha : a.exactKey = true) : a.eqv a = true := by
  cases a <;> simp_all [Value.exactKey, Value.eqv]

/-- A double equals at most one whole number. -/
theorem Value.intEqFloat_unique {n m : Int} {x : Float} (hn : Value.intEqFloat n x = true)
    (hm : Value.intEqFloat m x = true) : n = m := by
  unfold Value.intEqFloat at hn hm
  split at hn
  · rename_i b hb
    rw [hb] at hm
    dsimp only at hn hm
    split at hn
    · rw [if_pos ‹_›] at hm
      simp only [decide_eq_true_eq] at hn hm
      rw [hn, hm]
    · rw [if_neg ‹_›] at hm
      simp only [decide_eq_true_eq] at hn hm
      have hpos : (0 : Int) < Int.pow 2 (-b.exp).toNat := by
        show 0 < (2 : Int) ^ (-b.exp).toNat
        exact Int.pow_pos (by decide)
      exact Int.eq_of_mul_eq_mul_right (Int.ne_of_gt hpos) (hn.trans hm.symm)
  · cases hn

/-- Equal exact keys compare alike with every value. -/
theorem Value.eqv_congr_of_exactKey {a b : Value} (ha : a.exactKey = true) (hb : b.exactKey = true)
    (hab : a.eqv b = true) (c : Value) : c.eqv a = c.eqv b := by
  cases a <;> simp [Value.exactKey] at ha <;> cases b <;> simp [Value.exactKey] at hb <;>
    simp [Value.eqv] at hab <;> cases c <;> simp [Value.eqv, hab] <;> cases ‹Bool› <;>
    cases ‹Bool› <;> simp_all

theorem Value.whole_of_eqv_float {x : Float} {k : Value} (hk : k.exactKey = true)
    (h : (Value.float x).eqv k = true) : ∃ n, k.wholeOf? = some n ∧ Value.intEqFloat n x = true := by
  cases k <;> simp [Value.exactKey] at hk <;> simp [Value.eqv] at h
  case bool b => exact ⟨_, rfl, h⟩
  case int n => exact ⟨n, rfl, h⟩

theorem Value.eqv_of_wholeOf? {k q : Value} {n : Int} (hk : k.wholeOf? = some n)
    (hq : q.wholeOf? = some n) : k.eqv q = true := by
  cases k <;> simp [Value.wholeOf?] at hk <;> cases q <;> simp [Value.wholeOf?] at hq
  case bool.bool b c => cases b <;> cases c <;> simp only [Value.eqv] <;> grind
  case bool.int b m => simp [Value.eqv, hq, ← hk]
  case int.bool m b => simp [Value.eqv, hk, ← hq]
  case int.int m m' => simp [Value.eqv, hk, hq]

/-- Two exact keys equal to one value are equal. -/
theorem Value.eqv_of_eqv_of_eqv {c k q : Value} (hk : k.exactKey = true) (hq : q.exactKey = true)
    (h1 : c.eqv k = true) (h2 : c.eqv q = true) : k.eqv q = true := by
  by_cases hc : c.exactKey = true
  · have h := Value.eqv_congr_of_exactKey hc hk h1 q
    rw [← Value.eqv_comm_of_exactKey hc, h2, Value.eqv_comm_of_exactKey hq] at h
    exact h.symm
  · cases c
    case float x =>
      obtain ⟨n, hn, hnx⟩ := Value.whole_of_eqv_float hk h1
      obtain ⟨m, hm, hmx⟩ := Value.whole_of_eqv_float hq h2
      rw [Value.intEqFloat_unique hmx hnx] at hm
      exact Value.eqv_of_wholeOf? hn hm
    all_goals
      cases k <;> simp [Value.exactKey] at hk hc <;> simp [Value.eqv] at h1

/-! ## Paths of keys -/

/-- The value at a path of keys, each looked up in the map reached so far. -/
def Value.at : Value → List Value → Option Value
  | v, [] => some v
  | .map es, k :: p => (lookupKey es k).bind fun w => w.at p
  | _, _ :: _ => none

/-- Every map reached along a path is keyed by exact keys, no two of them equal. -/
def Value.KeysDistinct (v : Value) : Prop :=
  ∀ p es, v.at p = some (.map es) →
    (∀ e ∈ es, e.1.exactKey = true) ∧ es.Pairwise fun a b => a.1.eqv b.1 = false

/-- Nothing but maps stands at the proper prefixes of `p`. -/
def Value.Clear (v : Value) (p : List Value) : Prop :=
  ∀ q r, p = q ++ r → r ≠ [] → ∀ w, v.at q = some w → ∃ es, w = .map es

theorem lookupKey_cons (k w : Value) (es : List (Value × Value)) (q : Value) :
    lookupKey ((k, w) :: es) q = if k.eqv q then some w else lookupKey es q := by
  by_cases hk : k.eqv q <;> simp [lookupKey, hk]

theorem lookupKey_congr (es : List (Value × Value)) {k q : Value} (hk : k.exactKey = true)
    (hq : q.exactKey = true) (hkq : k.eqv q = true) : lookupKey es k = lookupKey es q := by
  simp only [lookupKey, Value.eqv_congr_of_exactKey hk hq hkq]

/-- Putting a value under an exact key changes what an exact key finds only for keys equal to
it. -/
theorem lookupKey_insertEntry (es : List (Value × Value)) {k q : Value} (w : Value)
    (hk : k.exactKey = true) (hq : q.exactKey = true) :
    lookupKey (Value.insertEntry es k w) q =
      if k.eqv q then some w else lookupKey es q := by
  have hsame : ∀ e : Value × Value, k.eqv q = true → e.1.eqv q = k.eqv e.1 := fun e hkq => by
    rw [← Value.eqv_congr_of_exactKey hk hq hkq, Value.eqv_comm_of_exactKey hk]
  have hapart : ∀ e : Value × Value, k.eqv q = false → e.1.eqv q = true → k.eqv e.1 = false :=
    fun e hkq heq => by
      rw [Value.eqv_comm_of_exactKey hk]
      cases h : e.1.eqv k
      · rfl
      · rw [Value.eqv_of_eqv_of_eqv hk hq h heq] at hkq
        cases hkq
  unfold Value.insertEntry lookupKey
  split
  · rename_i hany
    rw [List.find?_map, Option.map_map]
    have hkeys : ((fun e : Value × Value => e.1.eqv q) ∘
        fun e : Value × Value => if k.eqv e.1 then (e.1, w) else (e.1, e.2)) =
        fun e => e.1.eqv q := by
      funext e
      by_cases h : k.eqv e.1 <;> simp [h]
    simp only [hkeys]
    cases hkq : k.eqv q
    · cases hf : es.find? (fun e => e.1.eqv q) with
      | none => rfl
      | some e =>
        have hp := List.find?_some hf
        simp [hapart e hkq hp]
    · obtain ⟨e, he, hke⟩ := List.any_eq_true.1 hany
      have hfound : (es.find? fun e => e.1.eqv q).isSome := by
        rw [List.find?_isSome]
        exact ⟨e, he, by rw [hsame e hkq]; exact hke⟩
      obtain ⟨e', he'⟩ := Option.isSome_iff_exists.1 hfound
      have hp := List.find?_some he'
      rw [hsame e' hkq] at hp
      simp [he', hp]
  · rename_i hany
    rw [List.find?_append]
    cases hkq : k.eqv q
    · simp [hkq]
    · have hnone : es.find? (fun e => e.1.eqv q) = none := by
        rw [List.find?_eq_none]
        intro e he hp
        rw [hsame e hkq] at hp
        exact hany (List.any_eq_true.2 ⟨e, he, hp⟩)
      simp [hnone, hkq]

/-! ## What a merge holds under a key -/

/-- What a merge holds under a key: the earlier value when the later map lacks the key; the
merge of both when both hold maps there; the later value otherwise. -/
inductive MergedAt (fuel : Nat) (B L M : List (Value × Value)) (q : Value) : Prop
  | earlier : lookupKey L q = none → lookupKey M q = lookupKey B q → MergedAt fuel B L M q
  | both {xs ys M' : List (Value × Value)} : lookupKey B q = some (.map xs) →
      lookupKey L q = some (.map ys) → mergeEntries fuel xs ys = some M' →
      lookupKey M q = some (.map M') → MergedAt fuel B L M q
  | later {w : Value} : lookupKey L q = some w → lookupKey M q = some w →
      (∀ xs ys, lookupKey B q = some (.map xs) → w ≠ .map ys) → MergedAt fuel B L M q

theorem MergedAt.of_other {fuel : Nat} {B B' L M : List (Value × Value)} {q k w : Value}
    (h : MergedAt fuel B' L M q) (hk : k.eqv q = false)
    (hB : lookupKey B' q = lookupKey B q) : MergedAt fuel B ((k, w) :: L) M q := by
  have hL : lookupKey ((k, w) :: L) q = lookupKey L q := by
    simp [lookupKey_cons, hk]
  cases h with
  | earlier hl hm => exact .earlier (hL ▸ hl) (hB ▸ hm)
  | both hb hl hxy hm => exact .both (hB ▸ hb) (hL ▸ hl) hxy hm
  | later hl hm hnot => exact .later (hL ▸ hl) hm (hB ▸ hnot)

/-- **What a merge holds under a key.** When the later map is keyed by exact keys, each once, the
merge holds under every exact key what `MergedAt` says. -/
theorem mergedAt_of_mergeEntries {fuel : Nat} {q : Value} (hq : q.exactKey = true) :
    ∀ (L B M : List (Value × Value)), (∀ e ∈ L, e.1.exactKey = true) →
      L.Pairwise (fun a b => a.1.eqv b.1 = false) →
      mergeEntries (fuel + 1) B L = some M → MergedAt fuel B L M q := by
  intro L
  induction L with
  | nil =>
    intro B M _ _ h
    cases h
    exact .earlier rfl rfl
  | cons e rest ih =>
    obtain ⟨k, w⟩ := e
    intro B M hexact hpair h
    have hk : k.exactKey = true := hexact (k, w) List.mem_cons_self
    obtain ⟨hk_rest, hrest⟩ := List.pairwise_cons.1 hpair
    rw [mergeEntries_succ, List.foldlM_cons] at h
    obtain ⟨B', hB', hM⟩ := Option.bind_eq_some_iff.1 h
    have ihB' := ih B' M (fun e he => hexact e (List.mem_cons_of_mem _ he)) hrest hM
    cases hkq : k.eqv q
    · have hB : lookupKey B' q = lookupKey B q := by
        unfold mergeEntry at hB'
        split at hB'
        · obtain ⟨M', -, rfl⟩ := Option.map_eq_some_iff.1 hB'
          rw [lookupKey_insertEntry _ _ hk hq, hkq, if_neg Bool.false_ne_true]
        · cases hB'
          rw [lookupKey_insertEntry _ _ hk hq, hkq, if_neg Bool.false_ne_true]
      exact ihB'.of_other hkq hB
    · have hnone : lookupKey rest q = none := by
        simp only [lookupKey, Option.map_eq_none_iff, List.find?_eq_none]
        intro e he hp
        rw [← Value.eqv_congr_of_exactKey hk hq hkq, ← Value.eqv_comm_of_exactKey hk,
          hk_rest e he] at hp
        cases hp
      have hM' : lookupKey M q = lookupKey B' q := by
        cases ihB' with
        | earlier _ hm => exact hm
        | both _ hl => simp [hnone] at hl
        | later hl => simp [hnone] at hl
      have hL : lookupKey ((k, w) :: rest) q = some w := by
        simp [lookupKey_cons, hkq]
      have hBk := lookupKey_congr B hk hq hkq
      unfold mergeEntry at hB'
      split at hB'
      · rename_i xs ys hb hw
        rw [hBk] at hb
        obtain ⟨M', hxy, rfl⟩ := Option.map_eq_some_iff.1 hB'
        subst hw
        exact .both hb hL hxy (by rw [hM', lookupKey_insertEntry _ _ hk hq, hkq, if_pos rfl])
      · rename_i hnot
        cases hB'
        refine .later hL (by rw [hM', lookupKey_insertEntry _ _ hk hq, hkq, if_pos rfl])
          fun xs ys hb hw => ?_
        exact hnot xs ys (hBk.trans hb) hw

/-! ## What a merge holds along a path -/

theorem Value.at_map_cons (es : List (Value × Value)) (q : Value) (p : List Value) :
    (Value.map es).at (q :: p) = (lookupKey es q).bind fun w => w.at p := rfl

theorem Value.KeysDistinct.lookup {es : List (Value × Value)} (h : (Value.map es).KeysDistinct)
    {q w : Value} (hw : lookupKey es q = some w) : w.KeysDistinct :=
  fun p xs hp => h (q :: p) xs (by rw [Value.at_map_cons, hw]; exact hp)

/-- Only maps stand before a path below a key of a map when the value under the key is a map,
if the path goes on, and only maps stand before the rest of the path in that value. -/
theorem Value.clear_cons {es : List (Value × Value)} {q w : Value}
    (hw : lookupKey es q = some w) (p : List Value) :
    (Value.map es).Clear (q :: p) ↔ (p ≠ [] → ∃ xs, w = .map xs) ∧ w.Clear p := by
  constructor
  · intro h
    refine ⟨fun hp => h [q] p rfl hp w (by simp [hw, Value.at]), ?_⟩
    intro p' r hp hr u hu
    exact h (q :: p') r (by simp [hp]) hr u (by rw [Value.at_map_cons, hw]; exact hu)
  · rintro ⟨hmap, hclear⟩ p' r hp hr u hu
    cases p' with
    | nil => cases hu; exact ⟨es, rfl⟩
    | cons q' p' =>
      simp only [List.cons_append, List.cons.injEq] at hp
      obtain ⟨rfl, rfl⟩ := hp
      rw [Value.at_map_cons, hw] at hu
      exact hclear p' r rfl hr u hu

theorem Value.clear_cons_of_none {es : List (Value × Value)} {q : Value}
    (hw : lookupKey es q = none) (p : List Value) : (Value.map es).Clear (q :: p) := by
  intro p' r hp _ u hu
  cases p' with
  | nil => cases hu; exact ⟨es, rfl⟩
  | cons q' p' =>
    simp only [List.cons_append, List.cons.injEq] at hp
    obtain ⟨rfl, -⟩ := hp
    simp [Value.at_map_cons, hw] at hu

/-- **What a merged map holds along a path.** When the later map keys its maps by exact keys,
each once, a value that is no map stands at a path of exact keys of the merge exactly when the
later map holds it there, or when the later map holds nothing there nor anything but maps on the
way and the earlier map holds it there. -/
theorem mergeEntries_at (p : List Value) (hp : ∀ q ∈ p, q.exactKey = true) :
    ∀ (fuel : Nat) (B L M : List (Value × Value)), (Value.map L).KeysDistinct →
      mergeEntries fuel B L = some M → ∀ v, (∀ es, v ≠ .map es) →
      ((Value.map M).at p = some v ↔ (Value.map L).at p = some v ∨
        ((Value.map L).at p = none ∧ (Value.map L).Clear p ∧ (Value.map B).at p = some v)) := by
  induction p with
  | nil =>
    intro fuel B L M _ _ v hv
    simp only [Value.at, Option.some.injEq, reduceCtorEq, false_and, or_false]
    exact ⟨fun h => absurd h.symm (hv M), fun h => absurd h.symm (hv L)⟩
  | cons q p ih =>
    intro fuel B L M hL h v hv
    obtain ⟨fuel, rfl⟩ : ∃ f, fuel = f + 1 := by
      cases fuel with
      | zero => cases h
      | succ f => exact ⟨f, rfl⟩
    have hq : q.exactKey = true := hp q List.mem_cons_self
    have ih' := ih fun q' hq' => hp q' (List.mem_cons_of_mem q hq')
    obtain ⟨hexact, hpair⟩ := hL [] L rfl
    simp only [Value.at_map_cons]
    cases mergedAt_of_mergeEntries hq L B M hexact hpair h with
    | earlier hl hm =>
      have hclear := Value.clear_cons_of_none hl p
      simp [hl, hm, hclear]
    | @both xs ys M' hb hl hxy hm =>
      have ihq := ih' fuel xs ys M' (hL.lookup hl) hxy v hv
      have hclear := Value.clear_cons hl p
      simp only [hb, hl, hm, Option.bind_some]
      rw [ihq]
      simp [hclear]
    | @later w hl hm hnot =>
      simp only [hl, hm, Option.bind_some]
      refine ⟨Or.inl, fun h' => h'.elim id fun ⟨hnone, hclear, hb⟩ => ?_⟩
      exfalso
      cases p with
      | nil => simp [Value.at] at hnone
      | cons q' p' =>
        obtain ⟨ys, rfl⟩ := ((Value.clear_cons hl _).1 hclear).1 (List.cons_ne_nil _ _)
        obtain ⟨u, hu, hv'⟩ := Option.bind_eq_some_iff.1 hb
        have hmap : ∃ xs, u = .map xs := by
          cases u with
          | map xs => exact ⟨xs, rfl⟩
          | _ => simp [Value.at] at hv'
        obtain ⟨xs, rfl⟩ := hmap
        exact hnot xs ys hu rfl

end BlockPlan
