import BlockPlan.Proofs.RoundingInterval

/-!
# Reading number texts back

`readDecimal` reads a decimal text as its sign and a rational magnitude: digits with an optional
point, then an optional exponent after `e`. The text of every finite double, under any layout,
is a `FiniteText`: its sign, then a digit, only the characters of numbers, a point or an
exponent mark somewhere, and it reads as zero or as the shortest digits of the double times their
power of ten (`finiteText_render`). Since those digits read back as the double and no other
(`Binary.shortest_readsBack`, `float_eq_of_readsBack`), different doubles have different JSON
number texts (`render_json_injective`).
-/

namespace BlockPlan.Decimal

/-- The sign of a decimal text, and the text after it. -/
def splitSign : List Char → Bool × List Char
  | '-' :: rest => (true, rest)
  | cs => (false, cs)

/-- A whole number with an optional sign, as the exponent of a decimal is written. -/
def readExponent : List Char → ℤ
  | '-' :: ds => -(Nat.ofDigitChars 10 ds 0 : ℤ)
  | '+' :: ds => Nat.ofDigitChars 10 ds 0
  | ds => Nat.ofDigitChars 10 ds 0

/-- Digits with an optional point: the number the digits form, divided by ten for each digit
after the point. -/
def readPoint (cs : List Char) : ℚ :=
  (Nat.ofDigitChars 10 (cs.takeWhile (· != '.') ++ (cs.dropWhile (· != '.')).drop 1) 0 : ℚ) /
    10 ^ ((cs.dropWhile (· != '.')).drop 1).length

/-- The sign and the magnitude of a decimal text: digits with an optional point, then an optional
exponent after `e`. -/
def readDecimal (cs : List Char) : Bool × ℚ :=
  ((splitSign cs).1, readPoint ((splitSign cs).2.takeWhile (· != 'e')) *
    10 ^ readExponent (((splitSign cs).2.dropWhile (· != 'e')).drop 1))

/-- The characters of the sign of a number. -/
def signChars (neg : Bool) : List Char := if neg then ['-'] else []

/-! ## Reading the parts of a number text -/

theorem toList_sign (neg : Bool) : (if neg then "-" else "").toList = signChars neg := by
  cases neg <;> simp [signChars]

theorem digit_ne_marks (c : Char) (h : c.isDigit = true) :
    (c != '.') = true ∧ (c != 'e') = true ∧ c ≠ '-' := by
  simp only [Char.isDigit, Bool.and_eq_true, decide_eq_true_eq] at h
  simp only [bne_iff_ne, ne_eq]
  refine ⟨?_, ?_, ?_⟩ <;> · intro hc; subst hc; simp_all

theorem splitSign_sign (neg : Bool) (c : Char) (cs : List Char) (hc : c ≠ '-') :
    splitSign (signChars neg ++ c :: cs) = (neg, c :: cs) := by
  cases neg
  · simp only [signChars, Bool.false_eq_true, if_false, List.nil_append, splitSign]
    split
    · rename_i h
      cases h
      exact absurd rfl hc
    · rfl
  · rfl

theorem readDecimal_point (neg : Bool) (c : Char) (m : List Char) (hc : c.isDigit = true)
    (hm : ∀ a ∈ m, (a != 'e') = true) :
    readDecimal (signChars neg ++ c :: m) = (neg, readPoint (c :: m)) := by
  have hall : ∀ a ∈ c :: m, (a != 'e') = true := by
    intro a ha
    rcases List.mem_cons.1 ha with rfl | ha
    · exact (digit_ne_marks a hc).2.1
    · exact hm a ha
  unfold readDecimal
  rw [splitSign_sign neg c m (digit_ne_marks c hc).2.2, List.takeWhile_eq_self_iff.2 hall,
    List.dropWhile_eq_nil_iff.2 hall]
  simp [readExponent]

/-- A text with an exponent reads as its digits with the point times ten to the exponent. -/
theorem readDecimal_exponent (neg : Bool) (c : Char) (m ex : List Char) (hc : c.isDigit = true)
    (hm : ∀ a ∈ m, (a != 'e') = true) :
    readDecimal (signChars neg ++ c :: (m ++ 'e' :: ex)) =
      (neg, readPoint (c :: m) * 10 ^ readExponent ex) := by
  have hall : ∀ a ∈ c :: m, (a != 'e') = true := by
    intro a ha
    rcases List.mem_cons.1 ha with rfl | ha
    · exact (digit_ne_marks a hc).2.1
    · exact hm a ha
  unfold readDecimal
  rw [splitSign_sign neg c (m ++ 'e' :: ex) (digit_ne_marks c hc).2.2, ← List.cons_append,
    List.takeWhile_append_of_pos hall, List.dropWhile_append_of_pos hall]
  simp

theorem readPoint_digits (ds : List Char) (h : ∀ a ∈ ds, (a != '.') = true) :
    readPoint ds = Nat.ofDigitChars 10 ds 0 := by
  unfold readPoint
  rw [List.takeWhile_eq_self_iff.2 h, List.dropWhile_eq_nil_iff.2 h]
  simp

/-- Digits, a point and digits read as the number all the digits form, divided by ten for each
digit after the point. -/
theorem readPoint_split (w f : List Char) (hw : ∀ a ∈ w, (a != '.') = true) :
    readPoint (w ++ '.' :: f) = (Nat.ofDigitChars 10 (w ++ f) 0 : ℚ) / 10 ^ f.length := by
  unfold readPoint
  rw [List.takeWhile_append_of_pos hw, List.dropWhile_append_of_pos hw]
  simp

theorem ofDigitChars_zeros_append (z : Nat) (ds : List Char) :
    Nat.ofDigitChars 10 (List.replicate z '0' ++ ds) 0 = Nat.ofDigitChars 10 ds 0 := by
  rw [Nat.ofDigitChars_append, Nat.ofDigitChars_replicate_zero, Nat.mul_zero]

theorem ofDigitChars_append_zeros (ds : List Char) (z : Nat) :
    Nat.ofDigitChars 10 (ds ++ List.replicate z '0') 0 = 10 ^ z * Nat.ofDigitChars 10 ds 0 := by
  rw [Nat.ofDigitChars_append, Nat.ofDigitChars_replicate_zero]

theorem readExponent_padded (e : ℤ) (z : Nat) :
    readExponent ((if e < 0 then "-" else "+").toList ++
      (List.replicate z '0' ++ Nat.toDigits 10 e.natAbs)) = e := by
  split
  · rename_i he
    simp only [show "-".toList = ['-'] by simp, List.cons_append, List.nil_append, readExponent]
    rw [ofDigitChars_zeros_append, Nat.ofDigitChars_ten_toDigits]
    omega
  · rename_i he
    simp only [show "+".toList = ['+'] by simp, List.cons_append, List.nil_append, readExponent]
    rw [ofDigitChars_zeros_append, Nat.ofDigitChars_ten_toDigits]
    omega

theorem zeros_digits (z : Nat) : ∀ a ∈ List.replicate z '0', a.isDigit = true := by
  intro a ha
  rw [List.eq_of_mem_replicate ha]
  rfl

theorem ne_e_of_digits (l : List Char) (h : ∀ a ∈ l, a.isDigit = true ∨ a = '.') :
    ∀ a ∈ l, (a != 'e') = true := by
  intro a ha
  rcases h a ha with hd | rfl
  · exact (digit_ne_marks a hd).2.1
  · rfl

/-- A number below one: a zero, the point, zeros and the digits. -/
theorem readDecimal_below_one (neg : Bool) (z : Nat) (ds : List Char)
    (hds : ∀ a ∈ ds, a.isDigit = true) :
    readDecimal (signChars neg ++ '0' :: '.' :: (List.replicate z '0' ++ ds)) =
      (neg, (Nat.ofDigitChars 10 ds 0 : ℚ) * 10 ^ (-((z + ds.length : ℕ) : ℤ))) := by
  rw [readDecimal_point neg '0' _ (by decide)]
  · rw [show '0' :: '.' :: (List.replicate z '0' ++ ds) = ['0'] ++ '.' :: (List.replicate z '0' ++ ds)
      from rfl, readPoint_split _ _ (by simp), List.singleton_append,
      show '0' :: (List.replicate z '0' ++ ds) = List.replicate (z + 1) '0' ++ ds from rfl,
      ofDigitChars_zeros_append, List.length_append, List.length_replicate, zpow_neg,
      zpow_natCast, div_eq_mul_inv]
  · apply ne_e_of_digits
    intro a ha
    simp only [List.mem_cons, List.mem_append] at ha
    rcases ha with rfl | ha | ha
    · exact .inr rfl
    · exact .inl (zeros_digits z a ha)
    · exact .inl (hds a ha)

/-- A whole number: the digits, zeros, and a point with one zero after it. -/
theorem readDecimal_whole (neg : Bool) (c : Char) (cs : List Char) (z : Nat)
    (hds : ∀ a ∈ c :: cs, a.isDigit = true) :
    readDecimal (signChars neg ++ c :: (cs ++ (List.replicate z '0' ++ ['.', '0']))) =
      (neg, (Nat.ofDigitChars 10 (c :: cs) 0 : ℚ) * 10 ^ (z : ℤ)) := by
  rw [readDecimal_point neg c _ (hds c List.mem_cons_self)]
  · rw [← List.append_assoc, ← List.cons_append, readPoint_split _ _ ?_,
      show (['0'] : List Char) = List.replicate 1 '0' from rfl, ofDigitChars_append_zeros,
      ← List.cons_append, ofDigitChars_append_zeros, List.length_replicate]
    · congr 1
      push_cast
      rw [zpow_natCast]
      ring
    · intro a ha
      simp only [List.mem_append, List.mem_cons] at ha
      rcases ha with rfl | ha | ha
      · exact (digit_ne_marks _ (hds _ List.mem_cons_self)).1
      · exact (digit_ne_marks a (hds a (List.mem_cons_of_mem c ha))).1
      · exact (digit_ne_marks a (zeros_digits z a ha)).1
  · apply ne_e_of_digits
    intro a ha
    simp only [List.mem_append, List.mem_cons, List.not_mem_nil] at ha
    rcases ha with ha | ha | rfl | rfl | ha
    · exact .inl (hds a (List.mem_cons_of_mem c ha))
    · exact .inl (zeros_digits z a ha)
    · exact .inr rfl
    · exact .inl (by decide)
    · exact ha.elim

/-- Digits with a point between them. -/
theorem readDecimal_inner (neg : Bool) (ds : List Char) (i : Nat) (hi : 0 < i) (hn : ds ≠ [])
    (hds : ∀ a ∈ ds, a.isDigit = true) :
    readDecimal (signChars neg ++ (ds.take i ++ '.' :: ds.drop i)) =
      (neg, (Nat.ofDigitChars 10 ds 0 : ℚ) * 10 ^ (-((ds.length - i : ℕ) : ℤ))) := by
  obtain ⟨c, t, ht⟩ : ∃ c t, ds.take i = c :: t :=
    List.exists_cons_of_ne_nil (by simp only [ne_eq, List.take_eq_nil_iff, not_or]; exact ⟨by omega, hn⟩)
  have hc : c.isDigit = true := hds c (List.mem_of_mem_take (ht ▸ List.mem_cons_self))
  have htake : ∀ a ∈ ds.take i, a.isDigit = true := fun a ha => hds a (List.mem_of_mem_take ha)
  rw [ht, List.cons_append, readDecimal_point neg c _ hc]
  · rw [← List.cons_append, ← ht, readPoint_split _ _ fun a ha => (digit_ne_marks a (htake a ha)).1,
      List.take_append_drop, List.length_drop, zpow_neg, zpow_natCast, div_eq_mul_inv]
  · apply ne_e_of_digits
    intro a ha
    simp only [List.mem_append, List.mem_cons] at ha
    rcases ha with ha | rfl | ha
    · exact .inl (htake a (ht ▸ List.mem_cons_of_mem c ha))
    · exact .inr rfl
    · exact .inl (hds a (List.mem_of_mem_drop ha))

theorem readPoint_lead (c : Char) (cs : List Char) (hc : c.isDigit = true) :
    readPoint (c :: '.' :: cs) =
      (Nat.ofDigitChars 10 (c :: cs) 0 : ℚ) * 10 ^ (-(cs.length : ℤ)) := by
  rw [show c :: '.' :: cs = [c] ++ '.' :: cs from rfl,
    readPoint_split _ _ (by simpa using (digit_ne_marks c hc).1), zpow_neg, zpow_natCast,
    div_eq_mul_inv]
  rfl

/-! ## The text of a finite double -/

/-- The characters a finite number is written with. -/
def NumChar (ch : Char) : Prop := ch.isDigit = true ∨ ch = '-' ∨ ch = '+' ∨ ch = '.' ∨ ch = 'e'

instance : DecidablePred NumChar := fun ch =>
  inferInstanceAs (Decidable (ch.isDigit = true ∨ ch = '-' ∨ ch = '+' ∨ ch = '.' ∨ ch = 'e'))

/-- What the text of a finite double is: its sign, then a digit; a point or an exponent mark
somewhere; nothing but digits, signs, the point and the exponent mark; and it reads as
`(neg, r)`. -/
structure FiniteText (cs : List Char) (neg : Bool) (r : ℚ) : Prop where
  lead : ∃ c rest, c.isDigit = true ∧ cs = signChars neg ++ c :: rest
  marked : '.' ∈ cs ∨ 'e' ∈ cs
  numeric : ∀ ch ∈ cs, NumChar ch
  reads : readDecimal cs = (neg, r)

theorem numChar_sign (neg : Bool) : ∀ ch ∈ signChars neg, NumChar ch := by
  cases neg <;> simp [signChars, NumChar]

theorem numChar_zeros (z : Nat) : ∀ ch ∈ List.replicate z '0', NumChar ch :=
  fun ch h => .inl (zeros_digits z ch h)

theorem numChar_digits (n : Nat) : ∀ ch ∈ Nat.toDigits 10 n, NumChar ch :=
  fun ch h => .inl (Nat.isDigit_of_mem_toDigits (by norm_num) (by norm_num) h)

theorem numChar_exponentSign (p : Prop) [Decidable p] :
    ∀ ch ∈ (if p then "-" else "+").toList, NumChar ch := by
  split <;> simp [NumChar]

/-- The text of a finite double under any layout: zero reads as zero, any other value as its
shortest digits times their power of ten. -/
theorem finiteText_render (l : Layout) (x : Float) (b : Binary)
    (hx : classify x.toBits = .finite b) :
    FiniteText (l.render x).toList b.neg
      (if b.mant = 0 then 0 else (b.shortest.1 : ℚ) * 10 ^ b.shortest.2) := by
  unfold Layout.render
  rw [hx]
  dsimp only
  split
  · simp only [String.toList_append, toList_sign, show "0.0".toList = ['0', '.', '0'] by simp]
    refine ⟨⟨'0', _, by decide, rfl⟩, by simp, ?_, ?_⟩
    · simp only [List.forall_mem_append, List.forall_mem_cons]
      exact ⟨numChar_sign _, by decide, by decide, by decide, nofun⟩
    · rw [readDecimal_point _ '0' _ (by decide) (by simp), readPoint_lead '0' ['0'] (by decide),
        show ['0', '0'] = List.replicate 2 '0' from rfl, Nat.ofDigitChars_replicate_zero]
      simp
  rcases hs : b.shortest with ⟨d, k⟩
  dsimp only
  have hdigit : ∀ c ∈ Nat.toDigits 10 d, c.isDigit = true :=
    fun c hc => Nat.isDigit_of_mem_toDigits (by norm_num) (by norm_num) hc
  have hval : Nat.ofDigitChars 10 (Nat.toDigits 10 d) 0 = d := Nat.ofDigitChars_ten_toDigits
  have hne : Nat.toDigits 10 d ≠ [] := Nat.toDigits_ne_nil
  generalize Nat.toDigits 10 d = ds at hdigit hval hne ⊢
  obtain ⟨c, cs, rfl⟩ := List.exists_cons_of_ne_nil hne
  have hc : c.isDigit = true := hdigit c List.mem_cons_self
  have hnumc : NumChar c := .inl hc
  have hnumcs : ∀ a ∈ cs, NumChar a := fun a ha => .inl (hdigit a (List.mem_cons_of_mem c ha))
  split
  · split
    · -- below one: a zero, the point, zeros, then the digits
      simp only [String.toList_append, String.toList_ofList, toList_sign,
        show "0.".toList = ['0', '.'] by simp, List.append_assoc, List.cons_append,
        List.nil_append]
      refine ⟨⟨'0', _, by decide, rfl⟩, by simp, ?_, ?_⟩
      · simp only [List.forall_mem_append, List.forall_mem_cons, hnumc, true_and]
        exact ⟨numChar_sign _, by decide, by decide, numChar_zeros _, hnumcs⟩
      · rw [readDecimal_below_one b.neg _ _ hdigit, hval]
        congr 3
        omega
    · split
      · -- a whole number: the digits, zeros, and the point with a zero
        simp only [String.toList_append, String.toList_ofList, toList_sign,
          show ".0".toList = ['.', '0'] by simp, List.append_assoc, List.cons_append]
        refine ⟨⟨c, _, hc, rfl⟩, by simp, ?_, ?_⟩
        · simp only [List.forall_mem_append, List.forall_mem_cons, hnumc, true_and]
          exact ⟨numChar_sign _, hnumcs, numChar_zeros _, by decide, by decide, nofun⟩
        · rw [readDecimal_whole b.neg c cs _ hdigit, hval]
          congr 3
          omega
      · -- the point between the digits
        rename_i hp hp'
        simp only [String.toList_append, String.toList_ofList, toList_sign,
          show ".".toList = ['.'] by simp, List.append_assoc, List.cons_append, List.nil_append]
        refine ⟨?_, by simp, ?_, ?_⟩
        · obtain ⟨j, hj⟩ : ∃ j, (k + ((c :: cs).length : ℤ)).toNat = j + 1 :=
            ⟨_, (Nat.succ_pred_eq_of_pos (by omega)).symm⟩
          rw [hj, List.take_succ_cons, List.cons_append]
          exact ⟨c, _, hc, rfl⟩
        · have hnum : ∀ ch ∈ c :: cs, NumChar ch := List.forall_mem_cons.2 ⟨hnumc, hnumcs⟩
          simp only [List.forall_mem_append, List.forall_mem_cons]
          exact ⟨numChar_sign _, fun ch h => hnum ch (List.mem_of_mem_take h), by decide,
            fun ch h => hnum ch (List.mem_of_mem_drop h)⟩
        · rw [readDecimal_inner b.neg _ _ (by omega) hne hdigit, hval]
          congr 3
          omega
  · -- one digit, the point and the other digits, then the exponent
    cases cs with
    | nil =>
      simp only [String.toList_append, String.toList_ofList, toList_sign,
        show "e".toList = ['e'] by simp, List.append_assoc, List.cons_append, List.nil_append]
      refine ⟨⟨c, _, hc, rfl⟩, by simp, ?_, ?_⟩
      · simp only [List.forall_mem_append, List.forall_mem_cons, hnumc, true_and]
        exact ⟨numChar_sign _, by decide, numChar_exponentSign _, numChar_zeros _,
          numChar_digits _⟩
      · refine (readDecimal_exponent b.neg c [] _ hc nofun).trans ?_
        rw [readPoint_digits [c] (by simpa using (digit_ne_marks c hc).1), readExponent_padded,
          hval]
        congr 3
        simp
    | cons c' rest =>
      simp only [String.toList_append, String.toList_ofList, toList_sign,
        show "e".toList = ['e'] by simp, List.append_assoc, List.cons_append, List.nil_append]
      refine ⟨⟨c, _, hc, rfl⟩, by simp, ?_, ?_⟩
      · simp only [List.forall_mem_cons] at hnumcs
        simp only [List.forall_mem_append, List.forall_mem_cons, hnumc, hnumcs, true_and]
        exact ⟨numChar_sign _, by decide, hnumcs.2, by decide, numChar_exponentSign _,
          numChar_zeros _, numChar_digits _⟩
      · refine (readDecimal_exponent b.neg c ('.' :: c' :: rest) _ hc ?_).trans ?_
        · apply ne_e_of_digits
          intro a ha
          rcases List.mem_cons.1 ha with rfl | ha
          · exact .inr rfl
          · exact .inl (hdigit a (List.mem_cons_of_mem c ha))
        · rw [readPoint_lead c (c' :: rest) hc, readExponent_padded, hval, mul_assoc,
            ← zpow_add₀ (by norm_num)]
          congr 3
          simp
          omega

/-! ## Different doubles, different texts -/

theorem FiniteText.splitSign_eq {cs : List Char} {neg : Bool} {r : ℚ} (h : FiniteText cs neg r) :
    ∃ c rest, c.isDigit = true ∧ splitSign cs = (neg, c :: rest) := by
  obtain ⟨c, rest, hc, rfl⟩ := h.lead
  exact ⟨c, rest, hc, splitSign_sign neg c rest (digit_ne_marks c hc).2.2⟩

theorem render_nan (l : Layout) (x : Float) (h : classify x.toBits = .nan) :
    l.render x = l.nan := by
  unfold Layout.render
  rw [h]

theorem render_infinite (l : Layout) (x : Float) (neg : Bool)
    (h : classify x.toBits = .infinite neg) :
    l.render x = (if neg then "-" else "") ++ l.infinity := by
  unfold Layout.render
  rw [h]

theorem not_finiteText {cs : List Char} {neg : Bool} {r : ℚ} (s : Bool) (c : Char)
    (rest : List Char) (hs : splitSign cs = (s, c :: rest)) (hc : c.isDigit = false) :
    ¬ FiniteText cs neg r := by
  intro h
  obtain ⟨c', rest', hc', hs'⟩ := h.splitSign_eq
  rw [hs] at hs'
  simp only [Prod.mk.injEq, List.cons.injEq] at hs'
  rw [hs'.2.1, hc'] at hc
  cases hc

theorem splitSign_nan : splitSign Layout.json.nan.toList = (false, ['N', 'a', 'N']) := by
  decide

theorem splitSign_infinity (neg : Bool) :
    splitSign ((if neg then "-" else "") ++ Layout.json.infinity).toList =
      (neg, ['I', 'n', 'f', 'i', 'n', 'i', 't', 'y']) := by
  cases neg <;> decide

/-- Different doubles have different JSON number texts: not a number, the two infinities, the
two zeros and every other double each have a text of their own. -/
theorem render_json_injective : Function.Injective Layout.json.render := by
  intro x y h
  cases hx : classify x.toBits with
  | nan =>
    cases hy : classify y.toBits with
    | nan =>
      apply eq_of_toBits_eq
      rw [← UInt64.toNat_inj, toBits_of_classify_nan x hx, toBits_of_classify_nan y hy]
    | infinite ny =>
      rw [render_nan _ _ hx, render_infinite _ _ _ hy] at h
      exact absurd h (by cases ny <;> decide)
    | finite bY =>
      rw [render_nan _ _ hx] at h
      have hy' := finiteText_render Layout.json y bY hy
      rw [← h] at hy'
      exact absurd hy' (not_finiteText _ _ _ splitSign_nan rfl)
  | infinite nx =>
    cases hy : classify y.toBits with
    | nan =>
      rw [render_nan _ _ hy, render_infinite _ _ _ hx] at h
      exact absurd h (by cases nx <;> decide)
    | infinite ny =>
      rw [render_infinite _ _ _ hx, render_infinite _ _ _ hy] at h
      have hneg : nx = ny := by
        have := congrArg (fun s : String => (splitSign s.toList).1) h
        simpa only [splitSign_infinity] using this
      subst hneg
      apply eq_of_toBits_eq
      rw [← UInt64.toNat_inj, classify_infinite _ _ hx, classify_infinite _ _ hy]
    | finite bY =>
      rw [render_infinite _ _ _ hx] at h
      have hy' := finiteText_render Layout.json y bY hy
      rw [← h] at hy'
      exact absurd hy' (not_finiteText _ _ _ (splitSign_infinity nx) rfl)
  | finite bx =>
    cases hy : classify y.toBits with
    | nan =>
      rw [render_nan _ _ hy] at h
      have hx' := finiteText_render Layout.json x bx hx
      rw [h] at hx'
      exact absurd hx' (not_finiteText _ _ _ splitSign_nan rfl)
    | infinite ny =>
      rw [render_infinite _ _ _ hy] at h
      have hx' := finiteText_render Layout.json x bx hx
      rw [h] at hx'
      exact absurd hx' (not_finiteText _ _ _ (splitSign_infinity ny) rfl)
    | finite bY =>
      have hread := (finiteText_render Layout.json x bx hx).reads
      rw [h, (finiteText_render Layout.json y bY hy).reads] at hread
      simp only [Prod.mk.injEq] at hread
      obtain ⟨hneg, hval⟩ := hread
      by_cases hmx : bx.mant = 0 <;> by_cases hmy : bY.mant = 0
      · exact eq_of_mant_zero x y bx bY hx hy hneg.symm hmx hmy
      · have hpos := (Binary.shortest_readsBack bY (Nat.pos_of_ne_zero hmy) (classify_shaped _ _ hy)).1
        rw [if_pos hmx, if_neg hmy] at hval
        have : (0 : ℚ) < bY.shortest.1 * 10 ^ bY.shortest.2 := by positivity
        linarith
      · have hpos := (Binary.shortest_readsBack bx (Nat.pos_of_ne_zero hmx) (classify_shaped _ _ hx)).1
        rw [if_neg hmx, if_pos hmy] at hval
        have : (0 : ℚ) < bx.shortest.1 * 10 ^ bx.shortest.2 := by positivity
        linarith
      · rw [if_neg hmx, if_neg hmy] at hval
        apply float_eq_of_readsBack x y bx bY hx hy hneg.symm _
          (Binary.shortest_readsBack bx (Nat.pos_of_ne_zero hmx) (classify_shaped _ _ hx)).2
        rw [← hval]
        exact (Binary.shortest_readsBack bY (Nat.pos_of_ne_zero hmy) (classify_shaped _ _ hy)).2

/-- A JSON number text is written with digits, signs, the point, the exponent mark and letters. -/
theorem render_json_chars (x : Float) :
    ∀ ch ∈ (Layout.json.render x).toList, NumChar ch ∨ ch.isAlpha = true := by
  cases hx : classify x.toBits with
  | nan =>
    rw [render_nan _ _ hx, show Layout.json.nan.toList = ['N', 'a', 'N'] by decide]
    simp only [List.forall_mem_cons, List.not_mem_nil, IsEmpty.forall_iff, implies_true, and_true]
    decide
  | infinite neg =>
    rw [render_infinite _ _ _ hx]
    cases neg
    · rw [show ((if false = true then "-" else "") ++ Layout.json.infinity).toList =
        ['I', 'n', 'f', 'i', 'n', 'i', 't', 'y'] by decide]
      simp only [List.forall_mem_cons, List.not_mem_nil, IsEmpty.forall_iff, implies_true, and_true]
      decide
    · rw [show ((if true = true then "-" else "") ++ Layout.json.infinity).toList =
        ['-', 'I', 'n', 'f', 'i', 'n', 'i', 't', 'y'] by decide]
      simp only [List.forall_mem_cons, List.not_mem_nil, IsEmpty.forall_iff, implies_true, and_true]
      decide
  | finite b => exact fun ch h => .inl ((finiteText_render _ x b hx).numeric ch h)

/-- Every JSON number text holds a character that no whole number is written with. -/
theorem render_json_not_whole (x : Float) :
    ∃ ch ∈ (Layout.json.render x).toList, ch.isDigit = false ∧ ch ≠ '-' := by
  cases hx : classify x.toBits with
  | nan =>
    rw [render_nan _ _ hx]
    exact ⟨'N', by decide, by decide⟩
  | infinite neg =>
    rw [render_infinite _ _ _ hx]
    exact ⟨'I', by cases neg <;> decide, by decide⟩
  | finite b =>
    rcases (finiteText_render _ x b hx).marked with h | h
    · exact ⟨'.', h, by decide⟩
    · exact ⟨'e', h, by decide⟩

end BlockPlan.Decimal
