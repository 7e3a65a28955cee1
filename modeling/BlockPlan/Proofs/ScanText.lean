import BlockPlan.Proofs.NearestDouble
import BlockPlan.Proofs.JsonText

/-!
# Scanning written JSON text

The reader walks an array of code points by position. Here each scanning step is run on text
that stands at the position (`s.toList.drop i = text ++ rest`):

* runs of blanks and of digits are skipped whole (`skipBlanks_run`, `skipDigits_run`), and digits
  are read as the number they write (`digitsValue_run`);
* a quoted string written without escaping text outside ASCII is read as the text
  (`scanString_quote`);
* a number written as JSON writes one is read with its value (`scanNumber_numberChars`): a whole
  number as itself, any other as the double nearest its decimal value; so the text of a finite
  double reads as that double (`scanNumber_floatText`) and the text of a whole number of at most
  `digitLimit` digits as that number (`scanNumber_intText`); the text of every finite double is
  such a number (`render_numberChars`), with a fraction or an exponent;
* the literals are read as their values (`scanScalar_null`, `scanScalar_bool`).
-/

namespace BlockPlan.JsonRead

/-! ## Reading at a position -/

section Cursor

variable {s : Array Nat} {i : Nat}

theorem at?_of_drop {c : Nat} {rest : List Nat} (h : s.toList.drop i = c :: rest) :
    at? s i = some c := by
  unfold at?
  rw [← Array.getElem?_toList, ← List.head?_drop, h, List.head?_cons]

theorem at?_of_drop_nil (h : s.toList.drop i = []) : at? s i = none := by
  unfold at?
  rw [← Array.getElem?_toList, ← List.head?_drop, h, List.head?_nil]

theorem drop_succ_of_drop {c : Nat} {rest : List Nat} (h : s.toList.drop i = c :: rest) :
    s.toList.drop (i + 1) = rest := by
  rw [← List.drop_drop, h, List.drop_one, List.tail_cons]

theorem drop_add_of_drop {l rest : List Nat} (h : s.toList.drop i = l ++ rest) :
    s.toList.drop (i + l.length) = rest := by
  rw [← List.drop_drop, h, List.drop_left]

theorem lt_size_of_drop {c : Nat} {rest : List Nat} (h : s.toList.drop i = c :: rest) :
    i < s.size := by
  have hlen := congrArg List.length h
  rw [List.length_drop, Array.length_toList, List.length_cons] at hlen
  omega

theorem getElem_of_drop {c : Nat} {rest : List Nat} (h : s.toList.drop i = c :: rest)
    (hi : i < s.size) : s[i] = c := by
  have := at?_of_drop h
  unfold at? at this
  rw [Array.getElem?_eq_getElem hi] at this
  exact Option.some.inj this

theorem size_le_of_drop_nil (h : s.toList.drop i = []) : s.size ≤ i := by
  rw [List.drop_eq_nil_iff, Array.length_toList] at h
  exact h

end Cursor

/-! ## Runs of blanks and digits -/

section Runs

variable {s : Array Nat}

/-- A run of blanks is skipped up to the first code that is not one. -/
theorem skipBlanks_run (bs rest : List Nat) (hbs : ∀ c ∈ bs, isBlank c = true)
    (hrest : ∀ c ∈ rest.head?, isBlank c = false) :
    ∀ i, s.toList.drop i = bs ++ rest → skipBlanks s i = i + bs.length := by
  induction bs with
  | nil =>
    intro i h
    rw [skipBlanks]
    split
    · rename_i hi
      cases rest with
      | nil => exact absurd hi (not_lt.2 (size_le_of_drop_nil h))
      | cons c rest =>
        rw [getElem_of_drop h hi, if_neg (by rw [hrest c rfl]; decide)]
        rfl
    · rfl
  | cons b bs ih =>
    intro i h
    rw [skipBlanks, dif_pos (lt_size_of_drop h), getElem_of_drop h (lt_size_of_drop h),
      if_pos (hbs b List.mem_cons_self),
      ih (fun c hc => hbs c (List.mem_cons_of_mem b hc)) (i + 1) (drop_succ_of_drop h)]
    simp only [List.length_cons]
    omega

/-- A run of digits is skipped up to the first code that is not one. -/
theorem skipDigits_run (ds rest : List Nat) (hds : ∀ c ∈ ds, isDigit c = true)
    (hrest : ∀ c ∈ rest.head?, isDigit c = false) :
    ∀ i, s.toList.drop i = ds ++ rest → skipDigits s i = i + ds.length := by
  induction ds with
  | nil =>
    intro i h
    rw [skipDigits]
    split
    · rename_i hi
      cases rest with
      | nil => exact absurd hi (not_lt.2 (size_le_of_drop_nil h))
      | cons c rest =>
        rw [getElem_of_drop h hi, if_neg (by rw [hrest c rfl]; decide)]
        rfl
    · rfl
  | cons d ds ih =>
    intro i h
    rw [skipDigits, dif_pos (lt_size_of_drop h), getElem_of_drop h (lt_size_of_drop h),
      if_pos (hds d List.mem_cons_self),
      ih (fun c hc => hds c (List.mem_cons_of_mem d hc)) (i + 1) (drop_succ_of_drop h)]
    simp only [List.length_cons]
    omega

/-- The digits between two positions are read as the number they write. -/
theorem digitsValue_run (ds : List Char) (rest : List Nat) (i : Nat)
    (h : s.toList.drop i = ds.map Char.toNat ++ rest) :
    digitsValue s i (i + ds.length) = Nat.ofDigitChars 10 ds 0 := by
  unfold digitsValue
  have hmap : ((List.range (i + ds.length - i)).map fun k => (s[i + k]?.getD 0x30) - 0x30) =
      ds.map fun c => c.toNat - 0x30 := by
    apply List.ext_getElem
    · simp
    · intro k hk _
      have hk' : k < ds.length := by simpa using hk
      simp only [List.getElem_map, List.getElem_range]
      have hget : s[i + k]? = some ds[k].toNat := by
        rw [← Array.getElem?_toList, ← List.getElem?_drop, h,
          List.getElem?_append_left (by simpa using hk'), List.getElem?_map,
          List.getElem?_eq_getElem hk']
        rfl
      rw [hget, Option.getD_some]
  rw [hmap, Nat.ofDigitChars_eq_foldl, List.foldl_map]
  congr 1
  funext a c
  rw [Nat.mul_comm]
  rfl

end Runs

theorem isDigit_toNat (c : Char) : isDigit c.toNat = c.isDigit := by
  simp only [isDigit, Char.isDigit]
  rfl

/-! ## Numbers -/

/-- A whole part as JSON writes it: `0`, or digits that do not start with `0`. -/
def WholePart (w : List Char) : Prop :=
  w = ['0'] ∨ ∃ c cs, w = c :: cs ∧ c ≠ '0' ∧ ∀ a ∈ c :: cs, a.isDigit = true

/-- At least one digit. -/
def DigitRun (ds : List Char) : Prop := ds ≠ [] ∧ ∀ a ∈ ds, a.isDigit = true

/-- The point and the digits after it, if any. -/
def fracChars : Option (List Char) → List Char
  | none => []
  | some f => '.' :: f

/-- The exponent mark, the exponent's sign and its digits, if any. -/
def expChars : Option (Bool × List Char) → List Char
  | none => []
  | some (en, x) => 'e' :: (if en then '-' else '+') :: x

/-- The value of an exponent. -/
def expValue : Option (Bool × List Char) → Int
  | none => 0
  | some (en, x) => if en then -(Nat.ofDigitChars 10 x 0 : Int) else Nat.ofDigitChars 10 x 0

/-- The characters of a number as JSON writes one, from its sign, whole part, fraction and
exponent. -/
def numberChars (neg : Bool) (w : List Char) (f : Option (List Char))
    (e : Option (Bool × List Char)) : List Char :=
  Decimal.signChars neg ++ w ++ fracChars f ++ expChars e

/-- The parts of a number as JSON writes one. -/
structure NumberParts (w : List Char) (f : Option (List Char)) (e : Option (Bool × List Char)) :
    Prop where
  whole : WholePart w
  frac : ∀ ds ∈ f, DigitRun ds
  exp : ∀ p ∈ e, DigitRun p.2

theorem forall_mem_none {α : Type} (P : α → Prop) : ∀ a ∈ (none : Option α), P a :=
  fun a h => absurd h (Option.not_mem_none a)

/-- What may follow a value: nothing, a blank, a comma or a closing bracket or brace. -/
def Delimited (rest : List Nat) : Prop :=
  ∀ c ∈ rest.head?, isBlank c = true ∨ Json.isStop c = true

theorem Delimited.not_number {rest : List Nat} (h : Delimited rest) :
    ∀ c ∈ rest.head?, isDigit c = false ∧ c ≠ 0x2E ∧ c ≠ 0x65 ∧ c ≠ 0x45 := by
  intro c hc
  have := h c hc
  simp only [isBlank, Json.isStop, Bool.or_eq_true, decide_eq_true_eq, beq_iff_eq] at this
  simp only [isDigit, Bool.and_eq_false_iff, decide_eq_false_iff_not]
  omega

theorem isDigit_of_digit (c : Char) (h : c.isDigit = true) : isDigit c.toNat = true := by
  rw [isDigit_toNat, h]

section Phases

variable {s : Array Nat}

/-- The whole part is read up to the first code that is not a digit. -/
theorem wholeEnd_run (w : List Char) (hw : WholePart w) (rest : List Nat)
    (hrest : ∀ c ∈ rest.head?, isDigit c = false) (i : Nat)
    (h : s.toList.drop i = w.map Char.toNat ++ rest) : wholeEnd s i = some (i + w.length) := by
  rcases hw with rfl | ⟨c, cs, rfl, hc0, hdig⟩
  · unfold wholeEnd
    rw [at?_of_drop h]
    rfl
  · have hc : c.toNat ≠ 0x30 := by
      intro h0
      exact hc0 (Char.ext (UInt32.toNat_inj.1 (by simpa using h0)))
    rw [List.map_cons, List.cons_append] at h
    unfold wholeEnd
    rw [at?_of_drop h]
    split
    · rename_i h30
      exact absurd (Option.some.inj h30) hc
    · rename_i c' hc'
      cases hc'
      rw [if_pos (isDigit_of_digit c (hdig c List.mem_cons_self)),
        skipDigits_run (cs.map Char.toNat) rest
          (fun d hd => by
            obtain ⟨a, ha, rfl⟩ := List.mem_map.1 hd
            exact isDigit_of_digit a (hdig a (List.mem_cons_of_mem c ha)))
          hrest (i + 1) (drop_succ_of_drop h)]
      simp only [List.length_map, List.length_cons]
      congr 1
      omega
    · rename_i hnone
      cases hnone

/-- A point followed by digits is a fraction, read up to the first code that is not a digit. -/
theorem fractionEnd_some (ds : List Char) (hds : DigitRun ds) (rest : List Nat)
    (hrest : ∀ c ∈ rest.head?, isDigit c = false) (j : Nat)
    (h : s.toList.drop j = (fracChars (some ds)).map Char.toNat ++ rest) :
    fractionEnd s j = (j + (fracChars (some ds)).length, true) := by
  obtain ⟨d, ds', rfl⟩ := List.exists_cons_of_ne_nil hds.1
  simp only [fracChars, List.map_cons, List.cons_append, show '.'.toNat = 0x2E from rfl] at h
  have hd := isDigit_of_digit d (hds.2 d List.mem_cons_self)
  unfold fractionEnd
  rw [at?_of_drop h, at?_of_drop (drop_succ_of_drop h)]
  simp only [beq_self_eq_true, Option.any_some, hd, Bool.and_self, if_true]
  rw [skipDigits_run (ds'.map Char.toNat) rest
      (fun c hc => by
        obtain ⟨a, ha, rfl⟩ := List.mem_map.1 hc
        exact isDigit_of_digit a (hds.2 a (List.mem_cons_of_mem d ha)))
      hrest (j + 2) (drop_succ_of_drop (drop_succ_of_drop h))]
  simp only [fracChars, List.length_cons, List.length_map]
  congr 1
  omega

theorem fractionEnd_none (rest : List Nat) (hrest : ∀ c ∈ rest.head?, c ≠ 0x2E) (j : Nat)
    (h : s.toList.drop j = rest) : fractionEnd s j = (j, false) := by
  unfold fractionEnd
  cases rest with
  | nil => rw [at?_of_drop_nil h]; rfl
  | cons c rest =>
    rw [at?_of_drop h]
    have hc := hrest c rfl
    simp [hc]

/-- An exponent mark, a sign and digits are an exponent, read up to the first code that is not a
digit. -/
theorem exponentPart_some (en : Bool) (x : List Char) (hx : DigitRun x) (rest : List Nat)
    (hrest : ∀ c ∈ rest.head?, isDigit c = false) (j : Nat)
    (h : s.toList.drop j = (expChars (some (en, x))).map Char.toNat ++ rest) :
    exponentPart s j = (j + (expChars (some (en, x))).length, en, some (j + 2, j + 2 + x.length)) := by
  have hx' : ∀ c ∈ x.map Char.toNat, isDigit c = true := fun c hc => by
    obtain ⟨a, ha, rfl⟩ := List.mem_map.1 hc
    exact isDigit_of_digit a (hx.2 a ha)
  have hpos : 0 < x.length := List.length_pos_iff.2 hx.1
  unfold exponentPart
  dsimp only
  cases en
  · simp only [expChars, List.map_cons, List.cons_append, Bool.false_eq_true, if_false,
      show 'e'.toNat = 0x65 from rfl, show '+'.toNat = 0x2B from rfl] at h
    have hsign := drop_succ_of_drop h
    rw [at?_of_drop h, at?_of_drop hsign]
    simp only [beq_self_eq_true, Bool.true_or, if_true, beq_iff_eq, Option.some.injEq,
      Nat.reduceEqDiff, if_false]
    rw [skipDigits_run _ rest hx' hrest _ (drop_succ_of_drop hsign), List.length_map,
      if_pos (by omega)]
    simp only [expChars, List.length_cons]
    congr 1
    omega
  · simp only [expChars, List.map_cons, List.cons_append, if_true,
      show 'e'.toNat = 0x65 from rfl, show '-'.toNat = 0x2D from rfl] at h
    have hsign := drop_succ_of_drop h
    rw [at?_of_drop h, at?_of_drop hsign]
    simp only [beq_self_eq_true, Bool.true_or, if_true]
    rw [skipDigits_run _ rest hx' hrest _ (drop_succ_of_drop hsign), List.length_map,
      if_pos (by omega)]
    simp only [expChars, List.length_cons]
    congr 1
    omega

theorem exponentPart_none (rest : List Nat) (hrest : ∀ c ∈ rest.head?, c ≠ 0x65 ∧ c ≠ 0x45)
    (j : Nat) (h : s.toList.drop j = rest) : exponentPart s j = (j, false, none) := by
  unfold exponentPart
  cases rest with
  | nil => rw [at?_of_drop_nil h]; rfl
  | cons c rest =>
    rw [at?_of_drop h]
    have hc := hrest c rfl
    simp [hc.1, hc.2]

end Phases

/-- The number JSON writes from its parts is read up to its end: a number with neither fraction
nor exponent as a whole number (refused beyond `digitLimit` digits), any other as the double
nearest its digits times ten to the exponent less the digits after the point. -/
theorem scanNumber_numberChars {s : Array Nat} (neg : Bool) (w : List Char)
    (f : Option (List Char)) (e : Option (Bool × List Char)) (hp : NumberParts w f e)
    (rest : List Nat) (hrest : Delimited rest) (i : Nat)
    (h : s.toList.drop i = (numberChars neg w f e).map Char.toNat ++ rest) :
    scanNumber s i =
      if f.isNone ∧ e.isNone then
        (if w.length > Numeral.digitLimit then .error (.tooManyDigits w.length)
        else .ok (.int (if neg then -(Nat.ofDigitChars 10 w 0 : Int) else Nat.ofDigitChars 10 w 0),
          i + (numberChars neg w f e).length))
      else .ok (.float (Decimal.nearestDouble neg (Nat.ofDigitChars 10 (w ++ f.getD []) 0)
          (expValue e - (f.getD []).length)), i + (numberChars neg w f e).length) := by
  have hnum := hrest.not_number
  have hw0 : ∃ c cs, w = c :: cs ∧ c.isDigit = true := by
    rcases hp.whole with rfl | ⟨c, cs, rfl, -, hdig⟩
    · exact ⟨'0', [], rfl, rfl⟩
    · exact ⟨c, cs, rfl, hdig c List.mem_cons_self⟩
  obtain ⟨c0, cs0, hwc, hc0⟩ := hw0
  have hsign : (at? s i == some 0x2D) = neg := by
    cases neg
    · simp only [numberChars, Decimal.signChars, Bool.false_eq_true, if_false, List.nil_append,
        hwc, List.cons_append, List.map_cons] at h
      rw [at?_of_drop h]
      have hd := isDigit_of_digit c0 hc0
      simp only [isDigit, Bool.and_eq_true, decide_eq_true_eq] at hd
      simp only [beq_eq_false_iff_ne, ne_eq, Option.some.injEq]
      omega
    · simp only [numberChars, Decimal.signChars, if_true, List.cons_append, List.map_cons] at h
      rw [at?_of_drop h]
      rfl
  have h1 : s.toList.drop (if neg then i + 1 else i) =
      w.map Char.toNat ++ ((fracChars f).map Char.toNat ++ ((expChars e).map Char.toNat ++ rest)) := by
    cases neg
    · simpa [numberChars, Decimal.signChars, List.append_assoc] using h
    · simp only [numberChars, Decimal.signChars, if_true, List.cons_append, List.map_cons,
        List.map_append, List.append_assoc, List.nil_append] at h
      simpa using drop_succ_of_drop h
  have hexpHead : ∀ c ∈ ((expChars e).map Char.toNat ++ rest).head?, isDigit c = false ∧
      c ≠ 0x2E := by
    cases e with
    | none => exact fun c hc => ⟨(hnum c hc).1, (hnum c hc).2.1⟩
    | some p =>
      intro c hc
      simp only [expChars, List.map_cons, List.cons_append, List.head?_cons,
        Option.mem_def, Option.some.injEq] at hc
      subst hc
      decide
  have hfracHead : ∀ c ∈ ((fracChars f).map Char.toNat ++
      ((expChars e).map Char.toNat ++ rest)).head?, isDigit c = false := by
    cases f with
    | none => exact fun c hc => (hexpHead c hc).1
    | some ds =>
      intro c hc
      simp only [fracChars, List.map_cons, List.cons_append, List.head?_cons,
        Option.mem_def, Option.some.injEq] at hc
      subst hc
      decide
  have hwhole := wholeEnd_run w hp.whole _ hfracHead _ h1
  have h2 := drop_add_of_drop h1
  rw [List.length_map] at h2
  have hvalue := digitsValue_run w _ _ h1
  have hfrac : fractionEnd s ((if neg then i + 1 else i) + w.length) =
      ((if neg then i + 1 else i) + w.length + (fracChars f).length, f.isSome) := by
    cases f with
    | none => exact fractionEnd_none _ (fun c hc => (hexpHead c hc).2) _ h2
    | some ds =>
      exact fractionEnd_some ds (hp.frac ds rfl) _ (fun c hc => (hexpHead c hc).1) _ h2
  have h3 := drop_add_of_drop h2
  rw [List.length_map] at h3
  have hexp : exponentPart s ((if neg then i + 1 else i) + w.length + (fracChars f).length) =
      ((if neg then i + 1 else i) + w.length + (fracChars f).length + (expChars e).length,
        (e.map Prod.fst).getD false,
        e.map fun p => ((if neg then i + 1 else i) + w.length + (fracChars f).length + 2,
          (if neg then i + 1 else i) + w.length + (fracChars f).length + 2 + p.2.length)) := by
    cases e with
    | none => exact exponentPart_none _ (fun c hc => (hnum c hc).2.2) _ h3
    | some p =>
      obtain ⟨en, x⟩ := p
      exact exponentPart_some en x (hp.exp _ rfl) _ (fun c hc => (hnum c hc).1) _ h3
  have hlen : (if neg then i + 1 else i) + w.length + (fracChars f).length + (expChars e).length =
      i + (numberChars neg w f e).length := by
    cases neg <;> simp [numberChars, Decimal.signChars] <;> omega
  unfold scanNumber
  simp only [hsign, hwhole, hfrac, hexp, hvalue, hlen, Nat.pow_eq]
  generalize (if neg = true then i + 1 else i) = i1 at h1 h2 h3 ⊢
  have hexpValue : ∀ p ∈ e, digitsValue s (i1 + w.length + (fracChars f).length + 2)
      (i1 + w.length + (fracChars f).length + 2 + p.2.length) = Nat.ofDigitChars 10 p.2 0 := by
    intro p hpe
    cases hpe
    obtain ⟨en, x⟩ := p
    simp only [expChars, List.map_cons, List.cons_append] at h3
    exact digitsValue_run x rest _ (drop_succ_of_drop (drop_succ_of_drop h3))
  cases f with
  | none =>
    cases e with
    | none => simp [fracChars]
    | some p =>
      obtain ⟨en, x⟩ := p
      simp only [Option.map_some, Option.getD_some, hexpValue _ rfl]
      cases en <;> simp [fracChars, expValue]
  | some ds =>
    have hfracValue : digitsValue s (i1 + w.length + 1) (i1 + w.length + 1 + ds.length) =
        Nat.ofDigitChars 10 ds 0 := by
      simp only [fracChars, List.map_cons, List.cons_append] at h2
      exact digitsValue_run ds _ _ (drop_succ_of_drop h2)
    have hsplit : Nat.ofDigitChars 10 (w ++ ds) 0 =
        Nat.ofDigitChars 10 w 0 * 10 ^ ds.length + Nat.ofDigitChars 10 ds 0 := by
      rw [Nat.ofDigitChars_append, Nat.ofDigitChars_eq_ofDigitChars_zero, Nat.mul_comm]
    have hfd : i1 + w.length + (fracChars (some ds)).length - (i1 + w.length + 1) = ds.length := by
      simp only [fracChars, List.length_cons]
      omega
    have hend : i1 + w.length + (fracChars (some ds)).length = i1 + w.length + 1 + ds.length := by
      simp only [fracChars, List.length_cons]
      omega
    cases e with
    | none =>
      simp only [Option.isSome_some, if_true, hend, hfracValue]
      simp [hsplit, expValue]
    | some p =>
      obtain ⟨en, x⟩ := p
      simp only [Option.isSome_some, if_true, hfd, Option.map_some, Option.getD_some,
        hexpValue _ rfl]
      rw [hend, hfracValue]
      cases en <;> simp [hsplit, expValue]

/-! ## The texts of numbers -/

section NumberTexts

open Decimal

theorem WholePart.digitRun {w : List Char} (h : WholePart w) : DigitRun w := by
  rcases h with rfl | ⟨c, cs, rfl, -, hdig⟩
  · exact ⟨by simp, fun a ha => by rw [List.mem_singleton.1 ha]; rfl⟩
  · exact ⟨by simp, hdig⟩

theorem toDigits_digits (n : Nat) : ∀ c ∈ Nat.toDigits 10 n, c.isDigit = true :=
  fun _ hc => Nat.isDigit_of_mem_toDigits (by norm_num) (by norm_num) hc

theorem toDigits_head?_ne_zero (n : Nat) (hn : 0 < n) : (Nat.toDigits 10 n).head? ≠ some '0' := by
  induction n using Nat.strong_induction_on with
  | _ n ih =>
    rw [Nat.toDigits_eq_if (by norm_num)]
    split
    · rename_i hlt
      interval_cases n <;> decide
    · rw [List.head?_append_of_ne_nil _ Nat.toDigits_ne_nil]
      exact ih (n / 10) (by omega) (by omega)

theorem wholePart_toDigits (n : Nat) : WholePart (Nat.toDigits 10 n) := by
  rcases Nat.eq_zero_or_pos n with rfl | hn
  · exact .inl (Nat.toDigits_zero 10)
  · obtain ⟨c, cs, hds⟩ := List.exists_cons_of_ne_nil (Nat.toDigits_ne_nil (n := n) (b := 10))
    have hc : c ≠ '0' := fun h => toDigits_head?_ne_zero n hn (by rw [hds, h]; rfl)
    exact .inr ⟨c, cs, hds, hc, hds ▸ toDigits_digits n⟩

/-- Digits and the fraction after them read as all their digits, divided by ten for each digit
after the point. -/
theorem readPoint_fracChars (w : List Char) (hw : ∀ a ∈ w, a.isDigit = true)
    (f : Option (List Char)) :
    readPoint (w ++ fracChars f) =
      (Nat.ofDigitChars 10 (w ++ f.getD []) 0 : ℚ) * 10 ^ (-((f.getD []).length : ℤ)) := by
  have hpoint : ∀ a ∈ w, (a != '.') = true := fun a ha => (digit_ne_marks a (hw a ha)).1
  cases f with
  | none =>
    simp only [fracChars, List.append_nil, Option.getD_none, List.length_nil, Nat.cast_zero,
      neg_zero, zpow_zero, mul_one]
    exact readPoint_digits w hpoint
  | some ds =>
    rw [fracChars, readPoint_split w ds hpoint, zpow_neg, zpow_natCast, div_eq_mul_inv]
    rfl

/-- A number as JSON writes one reads as its digits times ten to the exponent less the digits
after the point. -/
theorem readDecimal_numberChars (neg : Bool) (w : List Char) (f : Option (List Char))
    (e : Option (Bool × List Char)) (hp : NumberParts w f e) :
    readDecimal (numberChars neg w f e) =
      (neg, (Nat.ofDigitChars 10 (w ++ f.getD []) 0 : ℚ) *
        10 ^ (expValue e - (f.getD []).length)) := by
  obtain ⟨hne, hdigits⟩ := hp.whole.digitRun
  obtain ⟨c, cs, rfl⟩ := List.exists_cons_of_ne_nil hne
  have hc := hdigits c List.mem_cons_self
  have hm : ∀ a ∈ cs ++ fracChars f, (a != 'e') = true := by
    apply ne_e_of_digits
    intro a ha
    rcases List.mem_append.1 ha with ha | ha
    · exact .inl (hdigits a (List.mem_cons_of_mem c ha))
    · cases f with
      | none => cases ha
      | some ds =>
        rcases List.mem_cons.1 ha with rfl | ha
        · exact .inr rfl
        · exact .inl ((hp.frac ds rfl).2 a ha)
  have hpoint := readPoint_fracChars (c :: cs) hdigits f
  rw [List.cons_append] at hpoint
  cases e with
  | none =>
    rw [show numberChars neg (c :: cs) f none = signChars neg ++ c :: (cs ++ fracChars f) by
        simp [numberChars, expChars],
      readDecimal_point neg c _ hc hm, hpoint]
    simp [expValue]
  | some p =>
    obtain ⟨en, x⟩ := p
    rw [show numberChars neg (c :: cs) f (some (en, x)) =
        signChars neg ++ c :: ((cs ++ fracChars f) ++ 'e' :: (if en then '-' else '+') :: x) by
        simp [numberChars, expChars],
      readDecimal_exponent neg c _ _ hc hm, hpoint, mul_assoc, ← zpow_add₀ (by norm_num)]
    have hexp : readExponent ((if en then '-' else '+') :: x) = expValue (some (en, x)) := by
      cases en <;> rfl
    rw [hexp, neg_add_eq_sub]

/-- The text of a finite double under any layout is a number as JSON writes one, with a fraction
or an exponent. -/
theorem render_numberChars (l : Layout) (x : Float) (b : Binary)
    (hx : classify x.toBits = .finite b) :
    ∃ w f e, NumberParts w f e ∧ (f.isSome ∨ e.isSome) ∧
      (l.render x).toList = numberChars b.neg w f e := by
  unfold Layout.render
  rw [hx]
  dsimp only
  split
  · -- zero
    refine ⟨['0'], some ['0'], none, ⟨.inl rfl, ?_, forall_mem_none _⟩, .inl rfl, ?_⟩
    · rintro _ ⟨⟩
      exact (WholePart.digitRun (.inl rfl))
    · simp [numberChars, fracChars, expChars, toList_sign]
  rename_i hm
  have hpos := (Binary.shortest_readsBack b (Nat.pos_of_ne_zero hm) (classify_shaped _ _ hx)).1
  rcases hs : b.shortest with ⟨d, k⟩
  rw [hs] at hpos
  dsimp only
  obtain ⟨c, cs, hds⟩ := List.exists_cons_of_ne_nil (Nat.toDigits_ne_nil (n := d) (b := 10))
  have hc0 : c ≠ '0' := fun h => toDigits_head?_ne_zero d hpos (by rw [hds, h]; rfl)
  have hdigit : ∀ a ∈ c :: cs, a.isDigit = true := hds ▸ toDigits_digits d
  rw [hds]
  split
  · split
    · -- below one: a zero, the point, zeros, then the digits
      refine ⟨['0'], some (List.replicate (-(k + ((c :: cs).length : ℤ))).toNat '0' ++ c :: cs),
        none, ⟨.inl rfl, ?_, forall_mem_none _⟩, .inl rfl, ?_⟩
      · rintro _ ⟨⟩
        exact ⟨by simp, List.forall_mem_append.2 ⟨zeros_digits _, hdigit⟩⟩
      · simp [numberChars, fracChars, expChars, toList_sign]
    · split
      · -- a whole number: the digits, zeros, and the point with a zero
        refine ⟨c :: cs ++ List.replicate ((k + ((c :: cs).length : ℤ)).toNat - (c :: cs).length) '0',
          some ['0'], none,
          ⟨.inr ⟨c, _, rfl, hc0, ?_⟩, ?_, forall_mem_none _⟩, .inl rfl, ?_⟩
        · exact fun a ha =>
            List.forall_mem_append.2 ⟨hdigit, zeros_digits _⟩ a (by simpa using ha)
        · rintro _ ⟨⟩
          exact (WholePart.digitRun (.inl rfl))
        · simp [numberChars, fracChars, expChars, toList_sign]
      · -- the point between the digits
        rename_i hp hp'
        obtain ⟨j, hj⟩ : ∃ j, (k + ((c :: cs).length : ℤ)).toNat = j + 1 :=
          ⟨_, (Nat.succ_pred_eq_of_pos (by omega)).symm⟩
        have hdrop : (c :: cs).drop (j + 1) ≠ [] := by
          simp only [ne_eq, List.drop_eq_nil_iff]
          omega
        rw [hj, List.take_succ_cons]
        have htake : ∀ a ∈ c :: cs.take j, a.isDigit = true := fun a ha =>
          hdigit a (List.mem_of_mem_take (show a ∈ (c :: cs).take (j + 1) by
            rw [List.take_succ_cons]
            exact ha))
        refine ⟨c :: cs.take j, some ((c :: cs).drop (j + 1)), none,
          ⟨.inr ⟨c, _, rfl, hc0, htake⟩, ?_, forall_mem_none _⟩, .inl rfl, ?_⟩
        · rintro _ ⟨⟩
          exact ⟨hdrop, fun a ha => hdigit a (List.mem_of_mem_drop ha)⟩
        · simp [numberChars, fracChars, expChars, toList_sign]
  · -- one digit, the point and the other digits, then the exponent
    generalize k + ((c :: cs).length : ℤ) - 1 = q
    generalize hex : List.replicate (l.expDigits - (Nat.toDigits 10 q.natAbs).length) '0' ++
      Nat.toDigits 10 q.natAbs = ex
    have hexp : DigitRun ex :=
      hex ▸ ⟨by simp, List.forall_mem_append.2 ⟨zeros_digits _, toDigits_digits _⟩⟩
    cases cs with
    | nil =>
      refine ⟨[c], none, some (decide (q < 0), ex), ⟨.inr ⟨c, [], rfl, hc0, hdigit⟩, forall_mem_none _, ?_⟩,
        .inr rfl, ?_⟩
      · rintro _ ⟨⟩
        exact hexp
      · simp [numberChars, fracChars, expChars, toList_sign]
        split <;> simp_all
    | cons c' rest =>
      refine ⟨[c], some (c' :: rest), some (decide (q < 0), ex),
        ⟨.inr ⟨c, [], rfl, hc0, fun a ha => hdigit a (by simp_all)⟩, ?_, ?_⟩, .inr rfl, ?_⟩
      · rintro _ ⟨⟩
        exact ⟨by simp, fun a ha => hdigit a (List.mem_cons_of_mem c ha)⟩
      · rintro _ ⟨⟩
        exact hexp
      · simp [numberChars, fracChars, expChars, toList_sign]
        split <;> simp_all

/-- The text of a finite double is read as that double. -/
theorem scanNumber_floatText {s : Array Nat} (x : Float) (hx : x.isFinite = true)
    (rest : List Nat) (hrest : Delimited rest) (i : Nat)
    (h : s.toList.drop i = (Json.floatText x).points ++ rest) :
    scanNumber s i = .ok (.float x, i + (Json.floatText x).points.length) := by
  obtain ⟨b, hb⟩ := classify_of_isFinite x hx
  obtain ⟨w, f, e, hp, hfe, htext⟩ := render_numberChars Layout.json x b hb
  have hpoints : (Json.floatText x).points = (numberChars b.neg w f e).map Char.toNat := by
    rw [← htext]
    rfl
  rw [hpoints] at h ⊢
  have hnotWhole : ¬(f.isNone ∧ e.isNone) := by
    cases f <;> cases e <;> simp_all
  rw [scanNumber_numberChars b.neg w f e hp rest hrest i h, if_neg hnotWhole]
  have hread := (finiteText_render Layout.json x b hb).reads
  rw [htext, readDecimal_numberChars b.neg w f e hp, Prod.mk.injEq] at hread
  have hreads : b.ReadsBack ((Nat.ofDigitChars 10 (w ++ f.getD []) 0 : ℚ) *
      10 ^ (expValue e - (f.getD []).length)) := by
    rw [hread.2]
    split
    · rename_i hm
      exact Binary.readsBack_zero b hm
    · rename_i hm
      exact (Binary.shortest_readsBack b (Nat.pos_of_ne_zero hm) (classify_shaped _ _ hb)).2
  rw [nearestDouble_eq x b hb _ _ hreads, List.length_map]

/-- The text of a whole number of at most `digitLimit` digits is read as that number. -/
theorem scanNumber_intText {s : Array Nat} (n : Int) (hn : Numeral.exceedsDigitLimit n = false)
    (rest : List Nat) (hrest : Delimited rest) (i : Nat)
    (h : s.toList.drop i = (Json.intText n).points ++ rest) :
    scanNumber s i = .ok (.int n, i + (Json.intText n).points.length) := by
  have hpoints : (Json.intText n).points =
      (numberChars (decide (n < 0)) (Nat.toDigits 10 n.natAbs) none none).map Char.toNat := by
    rw [Json.intText_points]
    simp [Json.intChars, numberChars, fracChars, expChars]
  rw [hpoints] at h ⊢
  rw [scanNumber_numberChars _ _ none none ⟨wholePart_toDigits _, forall_mem_none _, forall_mem_none _⟩ rest hrest i h]
  -- the digits are at most `digitLimit`, as the number is below `10 ^ digitLimit`
  have hlt : n.natAbs < Nat.pow 10 Numeral.digitLimit := by
    unfold Numeral.exceedsDigitLimit Numeral.firstTooLong at hn
    simpa only [decide_eq_false_iff_not, not_le] using hn
  have hlen : ¬(Nat.toDigits 10 n.natAbs).length > Numeral.digitLimit := by
    have hpos : 0 < Numeral.digitLimit := by decide
    generalize Numeral.digitLimit = L at hpos hlt ⊢
    exact not_lt.2 ((Nat.length_toDigits_le_iff (by norm_num) hpos).2 hlt)
  have hsign : (if decide (n < 0) = true then -(n.natAbs : Int) else n.natAbs) = n := by
    split <;> rename_i hneg <;> simp only [decide_eq_true_eq] at hneg <;> omega
  simp only [Option.isNone_none, and_self, if_true, hlen, if_false, Nat.ofDigitChars_ten_toDigits,
    hsign, List.length_map]

end NumberTexts

/-! ## Strings -/

section Strings

variable {s : Array Nat}

theorem scanString_close (start : Nat) (acc rest : List Nat) (i : Nat)
    (h : s.toList.drop i = 0x22 :: rest) :
    scanString s start i acc = .ok (⟨acc.reverse⟩, i + 1) := by
  have hi := lt_size_of_drop h
  rw [scanString, dif_pos hi]
  simp only [getElem_of_drop h hi, if_true]

theorem scanString_plain (start c : Nat) (hc : 0x20 ≤ c) (hq : c ≠ 0x22) (hb : c ≠ 0x5C)
    (acc more : List Nat) (i : Nat) (h : s.toList.drop i = c :: more) :
    scanString s start i acc = scanString s start (i + 1) (c :: acc) := by
  have hi := lt_size_of_drop h
  rw [scanString, dif_pos hi]
  simp only [getElem_of_drop h hi, if_neg hq, if_neg hb, if_neg (show ¬c < 0x20 by omega)]

/-- A backslash and a letter are read as the code point the letter names. -/
theorem scanString_simpleEscape (start e c : Nat) (he : simpleEscape e = some c)
    (acc more : List Nat) (i : Nat) (h : s.toList.drop i = 0x5C :: e :: more) :
    scanString s start i acc = scanString s start (i + 2) (c :: acc) := by
  have hi := lt_size_of_drop h
  have hnext : at? s (i + 1) = some e := at?_of_drop (drop_succ_of_drop h)
  rw [scanString, dif_pos hi]
  simp only [getElem_of_drop h hi, show (0x5C : Nat) ≠ 0x22 by decide, if_false, if_true, hnext]
  split
  · rename_i hnone
    cases hnone
  · -- no letter of an escape by name is the `u` of a numbered one
    rename_i hu
    cases hu
    simp [simpleEscape] at he
  · rename_i e' _ he'
    cases he'
    rw [he]

/-- Four hexadecimal digits are read as the number they write. -/
theorem hex4_of_drop (u : Nat) (hu : u < 0x10000) (more : List Nat) (j : Nat)
    (h : s.toList.drop j = (Nat.digitChar (u / 4096)).toNat :: (Nat.digitChar (u / 256 % 16)).toNat ::
      (Nat.digitChar (u / 16 % 16)).toNat :: (Nat.digitChar (u % 16)).toNat :: more) :
    hex4 s j = some u := by
  have h1 : s.toList.drop (j + 1) = _ := drop_succ_of_drop h
  have h2 : s.toList.drop (j + 2) = _ := drop_succ_of_drop h1
  have h3 : s.toList.drop (j + 3) = _ := drop_succ_of_drop h2
  unfold hex4
  rw [show List.range 4 = [0, 1, 2, 3] from rfl]
  have e1 := Json.hexValue_digitChar (u / 4096) (by omega)
  have e2 := Json.hexValue_digitChar (u / 256 % 16) (Nat.mod_lt _ (by norm_num))
  have e3 := Json.hexValue_digitChar (u / 16 % 16) (Nat.mod_lt _ (by norm_num))
  have e4 := Json.hexValue_digitChar (u % 16) (Nat.mod_lt _ (by norm_num))
  simp only [List.foldlM_cons, List.foldlM_nil, Nat.add_zero, at?_of_drop h, at?_of_drop h1,
    at?_of_drop h2, at?_of_drop h3, Option.bind_eq_bind, Option.bind_some, e1, e2, e3, e4,
    Option.pure_def, Option.some.injEq]
  omega

/-- A code unit written by number, with more code points after it, is read by its number: a high
surrogate whose escape is directly followed by another `\u` escape looks at that one too, to
join a low surrogate with it; any other number is read as itself. -/
theorem scanString_numbered (start u : Nat) (hu : u < 0x10000) (acc more : List Nat)
    (hmore : more ≠ []) (i : Nat) (h : s.toList.drop i = Json.unicodeEscape u ++ more) :
    scanString s start i acc =
      if isHighSurrogate u && i + 12 < s.size && at? s (i + 6) == some 0x5C &&
          at? s (i + 7) == some 0x75 then
        match hex4 s (i + 8) with
        | none => .error (.malformed "Invalid \\uXXXX escape" (i + 7))
        | some l =>
          if isLowSurrogate l then
            scanString s start (i + 12) ((0x10000 + (u - 0xD800) * 0x400 + (l - 0xDC00)) :: acc)
          else scanString s start (i + 6) (u :: acc)
      else scanString s start (i + 6) (u :: acc) := by
  rw [Json.unicodeEscape_eq u hu] at h
  simp only [List.cons_append, List.nil_append] at h
  have hi := lt_size_of_drop h
  have hnext : at? s (i + 1) = some 0x75 := at?_of_drop (drop_succ_of_drop h)
  have hsize : i + 6 < s.size := by
    have hlen := congrArg List.length h
    simp only [List.length_drop, Array.length_toList, List.length_cons] at hlen
    have := List.length_pos_iff.2 hmore
    omega
  have hhex := hex4_of_drop u hu more (i + 2) (drop_succ_of_drop (drop_succ_of_drop h))
  rw [scanString, dif_pos hi]
  -- the statement's match is not the definition's own: reduce both on the four code units read
  cases hex4 s (i + 8) <;>
    simp only [getElem_of_drop h hi, show (0x5C : Nat) ≠ 0x22 by decide, if_false, if_true, hnext,
      if_neg (show ¬i + 6 ≥ s.size by omega), hhex]

theorem scanString_unicodeEscape (start u : Nat) (hu : u < 0x10000)
    (hhigh : isHighSurrogate u = false) (acc more : List Nat) (hmore : more ≠ []) (i : Nat)
    (h : s.toList.drop i = Json.unicodeEscape u ++ more) :
    scanString s start i acc = scanString s start (i + 6) (u :: acc) := by
  rw [scanString_numbered start u hu acc more hmore i h, if_neg (by simp [hhigh])]

/-- Each code point written inside a string without escaping text outside ASCII is read as
itself. -/
theorem scanString_escapePoint (start c : Nat) (acc more : List Nat) (hmore : more ≠ [])
    (i : Nat) (h : s.toList.drop i = Json.escapePoint false c ++ more) :
    scanString s start i acc =
      scanString s start (i + (Json.escapePoint false c).length) (c :: acc) := by
  unfold Json.escapePoint at h ⊢
  by_cases h1 : c = 0x22
  · subst h1
    exact scanString_simpleEscape start 0x22 0x22 rfl acc more i h
  rw [if_neg h1] at h ⊢
  by_cases h2 : c = 0x5C
  · subst h2
    exact scanString_simpleEscape start 0x5C 0x5C rfl acc more i h
  rw [if_neg h2] at h ⊢
  by_cases h3 : c = 0x0A
  · subst h3
    exact scanString_simpleEscape start 0x6E 0x0A rfl acc more i h
  rw [if_neg h3] at h ⊢
  by_cases h4 : c = 0x0D
  · subst h4
    exact scanString_simpleEscape start 0x72 0x0D rfl acc more i h
  rw [if_neg h4] at h ⊢
  by_cases h5 : c = 0x09
  · subst h5
    exact scanString_simpleEscape start 0x74 0x09 rfl acc more i h
  rw [if_neg h5] at h ⊢
  by_cases h6 : c = 0x08
  · subst h6
    exact scanString_simpleEscape start 0x62 0x08 rfl acc more i h
  rw [if_neg h6] at h ⊢
  by_cases h7 : c = 0x0C
  · subst h7
    exact scanString_simpleEscape start 0x66 0x0C rfl acc more i h
  rw [if_neg h7] at h ⊢
  by_cases h8 : c < 0x20
  · rw [if_pos h8] at h ⊢
    rw [scanString_unicodeEscape start c (by omega) (by simp [isHighSurrogate]; omega) acc more
      hmore i h, Json.unicodeEscape_eq c (by omega)]
    rfl
  rw [if_neg h8, if_pos (by simp)] at h ⊢
  exact scanString_plain start c (by omega) h1 h2 acc more i h

/-- The escaped code points of a text, then the closing quote, are read as the text. -/
theorem scanString_escaped (start : Nat) (rest cs : List Nat) :
    ∀ i acc, s.toList.drop i = cs.flatMap (Json.escapePoint false) ++ 0x22 :: rest →
      scanString s start i acc =
        .ok (⟨acc.reverse ++ cs⟩, i + (cs.flatMap (Json.escapePoint false)).length + 1) := by
  induction cs with
  | nil =>
    intro i acc h
    simpa using scanString_close start acc rest i h
  | cons c cs ih =>
    intro i acc h
    rw [List.flatMap_cons, List.append_assoc] at h
    rw [scanString_escapePoint start c acc _ (by simp) i h, ih _ _ (drop_add_of_drop h)]
    simp only [List.reverse_cons, List.append_assoc, List.singleton_append, List.flatMap_cons,
      List.length_append]
    congr 2
    omega

theorem scanString_quote (t : Text) (rest : List Nat) (i : Nat)
    (h : s.toList.drop i = (Json.quote false t).points ++ rest) :
    scanString s i (i + 1) [] = .ok (t, i + (Json.quote false t).points.length) := by
  simp only [Json.quote, List.cons_append, List.append_assoc] at h ⊢
  rw [scanString_escaped i rest t.points (i + 1) [] (drop_succ_of_drop h)]
  simp only [List.reverse_nil, List.nil_append, List.length_cons, List.length_append,
    List.length_nil]
  congr 2
  omega

end Strings

/-! ## Literals and numbers among values -/

section Scalars

variable {s : Array Nat}

theorem spells_zipIdx (cs : List Char) (rest : List Nat) (i : Nat) :
    ∀ n, s.toList.drop (i + n) = cs.map Char.toNat ++ rest →
      ((cs.zipIdx n).all fun (c, k) => at? s (i + k) == some c.toNat) = true := by
  induction cs with
  | nil => intro n _; rfl
  | cons c cs ih =>
    intro n h
    rw [List.map_cons, List.cons_append] at h
    simp only [List.zipIdx_cons, List.all_cons, at?_of_drop h, beq_self_eq_true, Bool.true_and]
    exact ih (n + 1) (by rw [← Nat.add_assoc]; exact drop_succ_of_drop h)

theorem spells_of_drop (word : String) (rest : List Nat) (i : Nat)
    (h : s.toList.drop i = word.toList.map Char.toNat ++ rest) : spells s i word = true :=
  spells_zipIdx word.toList rest i 0 h

theorem scanScalar_null (rest : List Nat) (i : Nat)
    (h : s.toList.drop i = "null".toList.map Char.toNat ++ rest) :
    scanScalar s i = .ok (.null, i + 4) := by
  have hspells := spells_of_drop "null" rest i h
  rw [show "null".toList = ['n', 'u', 'l', 'l'] by simp] at h
  unfold scanScalar
  rw [at?_of_drop h]
  exact if_pos hspells

/-- `true` and `false` are read as the truth values they name. -/
theorem scanScalar_bool (b : Bool) (rest : List Nat) (i : Nat)
    (h : s.toList.drop i = (if b then "true" else "false").toList.map Char.toNat ++ rest) :
    scanScalar s i = .ok (.bool b, i + (if b then "true" else "false").length) := by
  cases b
  · have hspells := spells_of_drop "false" rest i h
    rw [if_neg Bool.false_ne_true, show "false".toList = ['f', 'a', 'l', 's', 'e'] by simp] at h
    unfold scanScalar
    rw [at?_of_drop h]
    exact if_pos hspells
  · have hspells := spells_of_drop "true" rest i h
    rw [if_pos rfl, show "true".toList = ['t', 'r', 'u', 'e'] by simp] at h
    unfold scanScalar
    rw [at?_of_drop h]
    exact if_pos hspells

/-- A number as JSON writes one is read by the number reader: it starts with a digit, or with a
minus sign and a digit, which spell no infinity. -/
theorem scanScalar_numberChars (neg : Bool) (w : List Char) (f : Option (List Char))
    (e : Option (Bool × List Char)) (hw : WholePart w) (rest : List Nat) (i : Nat)
    (h : s.toList.drop i = (numberChars neg w f e).map Char.toNat ++ rest) :
    scanScalar s i = scanNumber s i := by
  obtain ⟨hne, hdig⟩ := hw.digitRun
  obtain ⟨c, cs, rfl⟩ := List.exists_cons_of_ne_nil hne
  have hc := isDigit_of_digit c (hdig c List.mem_cons_self)
  simp only [isDigit, Bool.and_eq_true, decide_eq_true_eq] at hc
  cases neg
  · simp only [numberChars, Decimal.signChars, Bool.false_eq_true, if_false, List.nil_append,
      List.cons_append, List.map_cons] at h
    unfold scanScalar
    rw [at?_of_drop h]
    split <;> simp_all
  · simp only [numberChars, Decimal.signChars, if_true, List.cons_append, List.map_cons,
      show '-'.toNat = 0x2D from rfl] at h
    have hnext := at?_of_drop (drop_succ_of_drop h)
    have hI : (some c.toNat == some 'I'.toNat) = false := by
      simp only [beq_eq_false_iff_ne, ne_eq, Option.some.injEq, show 'I'.toNat = 0x49 from rfl]
      omega
    have hno : spells s i "-Infinity" = false := by
      simp only [spells,
        show "-Infinity".toList = ['-', 'I', 'n', 'f', 'i', 'n', 'i', 't', 'y'] by simp,
        List.zipIdx_cons, List.all_cons, Nat.zero_add, hnext, hI, Bool.and_false, Bool.false_and]
    unfold scanScalar
    rw [at?_of_drop h]
    simp only [hno, Bool.false_eq_true, if_false]

end Scalars

end BlockPlan.JsonRead
