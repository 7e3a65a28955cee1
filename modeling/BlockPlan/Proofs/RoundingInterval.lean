import Mathlib
import BlockPlan.Decimal.Shortest

/-!
# Rounding intervals of doubles

A finite double `±m · 2^e` is what reading gives back for every decimal whose magnitude lies in
its rounding interval (`Binary.ReadsBack`): half the gap to each neighbour, a quarter of the gap
above on the lower side at the least mantissa of a binade, ends included when `m` is even.

* `Binary.shortest_readsBack`: the digits that `Binary.shortest` chooses lie in the interval;
  seventeen significant digits always give a candidate (`Binary.onGrid_seventeen_isSome`), as
  the interval is wider than their grid's step.
* `Binary.eq_of_readsBack`: the intervals of the doubles of one sign follow one another, the
  upper end of each being the lower end of the next, which only one of the two holds; so a
  magnitude lies in the interval of at most one double.
* `toBits_of_classify_nan`: a double that is no number has one bit pattern.

All comparisons of `onGrid` are between whole numbers scaled by one positive factor
(`clearFactor`); here they are read as comparisons of rationals.
-/

namespace BlockPlan.Decimal

theorem pow_toNat_eq (x : ℚ) (hx : x ≠ 0) (a : ℤ) :
    x ^ a.toNat = x ^ a * x ^ (-a).toNat := by
  rw [← zpow_natCast, ← zpow_natCast, ← zpow_add₀ hx]
  congr 1
  omega

/-- The common factor by which `clear` scales both sides of a comparison. -/
def clearFactor (a k : ℤ) : ℚ := 2 ^ (-a).toNat * 10 ^ (-k).toNat

theorem clearFactor_pos (a k : ℤ) : 0 < clearFactor a k := by
  unfold clearFactor
  positivity

/-- After `clear`, the binary side is `x · 2^a` and the decimal side `d · 10^k`, both times one
positive factor. -/
theorem bin_cast (x : ℕ) (a k : ℤ) :
    ((x * (clear a 0).1 * (clear 0 k).2 : ℕ) : ℚ) = x * 2 ^ a * clearFactor a k := by
  simp only [clear, clearFactor, Nat.pow_eq, Int.toNat_zero, neg_zero, pow_zero, mul_one,
    one_mul, Nat.cast_mul, Nat.cast_pow, Nat.cast_ofNat]
  rw [pow_toNat_eq 2 two_ne_zero a]
  ring

theorem dec_cast (d : ℕ) (a k : ℤ) :
    ((d * (clear 0 k).1 * (clear a 0).2 : ℕ) : ℚ) = d * 10 ^ k * clearFactor a k := by
  simp only [clear, clearFactor, Nat.pow_eq, Int.toNat_zero, neg_zero, pow_zero, mul_one,
    one_mul, Nat.cast_mul, Nat.cast_pow, Nat.cast_ofNat]
  rw [pow_toNat_eq 10 (by norm_num) k]
  ring

theorem clear_le_iff (x d : ℕ) (a k : ℤ) :
    x * (clear a 0).1 * (clear 0 k).2 ≤ d * (clear 0 k).1 * (clear a 0).2 ↔
      (x : ℚ) * 2 ^ a ≤ d * 10 ^ k := by
  rw [← Nat.cast_le (α := ℚ), bin_cast, dec_cast]
  exact mul_le_mul_iff_left₀ (clearFactor_pos a k)

theorem clear_lt_iff (x d : ℕ) (a k : ℤ) :
    x * (clear a 0).1 * (clear 0 k).2 < d * (clear 0 k).1 * (clear a 0).2 ↔
      (x : ℚ) * 2 ^ a < d * 10 ^ k := by
  rw [← Nat.cast_lt (α := ℚ), bin_cast, dec_cast]
  exact mul_lt_mul_iff_left₀ (clearFactor_pos a k)

theorem le_clear_iff (x d : ℕ) (a k : ℤ) :
    d * (clear 0 k).1 * (clear a 0).2 ≤ x * (clear a 0).1 * (clear 0 k).2 ↔
      (d : ℚ) * 10 ^ k ≤ x * 2 ^ a := by
  rw [← Nat.cast_le (α := ℚ), bin_cast, dec_cast]
  exact mul_le_mul_iff_left₀ (clearFactor_pos a k)

theorem lt_clear_iff (x d : ℕ) (a k : ℤ) :
    d * (clear 0 k).1 * (clear a 0).2 < x * (clear a 0).1 * (clear 0 k).2 ↔
      (d : ℚ) * 10 ^ k < x * 2 ^ a := by
  rw [← Nat.cast_lt (α := ℚ), bin_cast, dec_cast]
  exact mul_lt_mul_iff_left₀ (clearFactor_pos a k)

namespace Binary

/-- The value of a finite double, its sign left aside. -/
def magnitude (b : Binary) : ℚ := b.mant * 2 ^ b.exp

/-- The lower end of the magnitudes that read back as the double: half the gap to the double
below, or a quarter of the gap above when the gap below is half of it. -/
def lowEnd (b : Binary) : ℚ := (4 * b.mant - if b.narrow then 1 else 2) * 2 ^ (b.exp - 2)

/-- The upper end: half the gap to the double above. -/
def highEnd (b : Binary) : ℚ := (4 * b.mant + 2) * 2 ^ (b.exp - 2)

/-- A magnitude reads back as the double: it lies between the two ends, which count when the
mantissa is even. -/
def ReadsBack (b : Binary) (r : ℚ) : Prop :=
  if b.mant % 2 = 0 then b.lowEnd ≤ r ∧ r ≤ b.highEnd else b.lowEnd < r ∧ r < b.highEnd

/-- Whether `d · 10^k` lies in the rounding interval of the double, compared in whole numbers
as `onGrid` compares it. -/
def gridInside (b : Binary) (k : Int) (d : Nat) : Bool :=
  let e := b.exp - 2
  let hi := 4 * b.mant + 2
  let lo := if b.narrow then 4 * b.mant - 1 else 4 * b.mant - 2
  let (binL, binR) := clear e 0
  let (decL, decR) := clear 0 k
  let bin (x : Nat) := x * binL * decR
  let dec (d : Nat) := d * decL * binR
  if b.mant % 2 = 0 then bin lo ≤ dec d && dec d ≤ bin hi
  else bin lo < dec d && dec d < bin hi

/-- The grid point at or below the double's value, on the grid of step `10^k`. -/
def gridBelow (b : Binary) (k : Int) : Nat :=
  4 * b.mant * (clear (b.exp - 2) 0).1 * (clear 0 k).2 / ((clear 0 k).1 * (clear (b.exp - 2) 0).2)

/-- A candidate that `onGrid` returns is one of the two grid points around the value, and lies
in the rounding interval. -/
theorem gridInside_of_onGrid (b : Binary) (n d : Nat) (k : Int) (h : b.onGrid n = some (d, k)) :
    k = b.leadExponent + 1 - n ∧ (d = b.gridBelow k ∨ d = b.gridBelow k + 1) ∧
      b.gridInside k d = true := by
  unfold onGrid at h
  dsimp only at h
  split at h
  · rename_i hbelow habove
    split_ifs at h <;> cases h
    all_goals first
      | exact ⟨rfl, .inl rfl, hbelow⟩
      | exact ⟨rfl, .inr rfl, habove⟩
  · rename_i hbelow _
    cases h
    exact ⟨rfl, .inl rfl, hbelow⟩
  · rename_i _ habove
    cases h
    exact ⟨rfl, .inr rfl, habove⟩
  · cases h

theorem lowEnd_eq (b : Binary) (hm : 0 < b.mant) :
    b.lowEnd = ((if b.narrow then 4 * b.mant - 1 else 4 * b.mant - 2 : ℕ) : ℚ) * 2 ^ (b.exp - 2) := by
  unfold lowEnd
  split <;> · push_cast [show 1 ≤ 4 * b.mant by omega, show 2 ≤ 4 * b.mant by omega]; ring

/-- What `gridInside` decides: `d · 10^k` reads back as the double. -/
theorem readsBack_of_gridInside (b : Binary) (hm : 0 < b.mant) (k : Int) (d : Nat)
    (h : b.gridInside k d = true) : b.ReadsBack (d * 10 ^ k) := by
  unfold gridInside at h
  dsimp only at h
  unfold ReadsBack
  rw [lowEnd_eq b hm, highEnd]
  split at h
  · rename_i heven
    rw [if_pos heven]
    simp only [Bool.and_eq_true, decide_eq_true_eq] at h
    exact ⟨(clear_le_iff _ _ _ _).1 h.1, by exact_mod_cast (le_clear_iff _ _ _ _).1 h.2⟩
  · rename_i hodd
    rw [if_neg hodd]
    simp only [Bool.and_eq_true, decide_eq_true_eq] at h
    exact ⟨(clear_lt_iff _ _ _ _).1 h.1, by exact_mod_cast (lt_clear_iff _ _ _ _).1 h.2⟩

/-- The leading decimal exponent bounds the value from below. -/
theorem ten_pow_leadExponent_le (b : Binary) (hm : 0 < b.mant) :
    (10 : ℚ) ^ b.leadExponent ≤ b.magnitude := by
  have hdigits : ∀ N : ℕ, 0 < N → (10 : ℚ) ^ ((digitCount N : ℤ) - 1) ≤ N := by
    intro N hN
    have hL : 0 < digitCount N := Nat.length_toDigits_pos
    obtain ⟨L, hL'⟩ : ∃ L, digitCount N = L + 1 := ⟨digitCount N - 1, by omega⟩
    rw [hL', Nat.cast_add, Nat.cast_one, add_sub_cancel_right, zpow_natCast]
    have hle : 10 ^ L ≤ N := by
      rcases Nat.eq_zero_or_pos L with rfl | hpos
      · rw [pow_zero]
        exact hN
      · by_contra hlt
        have := (Nat.length_toDigits_le_iff (b := 10) (n := N) (by norm_num) hpos).2 (by omega)
        unfold digitCount at hL'
        omega
    exact_mod_cast hle
  unfold leadExponent magnitude
  split
  · rename_i he
    have h := hdigits (b.mant * Nat.pow 2 b.exp.toNat) (Nat.mul_pos hm (by rw [Nat.pow_eq]; positivity))
    rw [Nat.pow_eq] at h
    push_cast at h
    rw [← zpow_natCast, Int.toNat_of_nonneg he] at h
    exact h
  · rename_i he
    have h := hdigits (b.mant * Nat.pow 5 (-b.exp).toNat) (Nat.mul_pos hm (by rw [Nat.pow_eq]; positivity))
    rw [Nat.pow_eq] at h
    push_cast at h
    rw [← zpow_natCast, Int.toNat_of_nonneg (by omega)] at h
    have h2 : (2 : ℚ) ^ b.exp = 10 ^ b.exp * 5 ^ (-b.exp) := by
      rw [zpow_neg, show (10 : ℚ) = 2 * 5 by norm_num, mul_zpow]
      field_simp
    rw [zpow_add₀ (by norm_num), h2]
    calc (10 : ℚ) ^ ((digitCount (b.mant * 5 ^ (-b.exp).toNat) : ℤ) - 1) * 10 ^ b.exp
        ≤ (b.mant * 5 ^ (-b.exp)) * 10 ^ b.exp := by gcongr
      _ = b.mant * (10 ^ b.exp * 5 ^ (-b.exp)) := by ring

/-- What `classify` gives of a finite double: a mantissa below `2^53`, which is `2^52` when the
gap below is half the gap above. -/
structure Shaped (b : Binary) : Prop where
  mant_lt : b.mant < 2 ^ 53
  narrow_mant : b.narrow = true → b.mant = 2 ^ 52

/-- Seventeen digits are finer than the rounding interval: its width is more than the step of
the grid of seventeen significant digits. -/
theorem grid_step_lt_width (b : Binary) (hm : 0 < b.mant) (hb : b.Shaped) :
    (10 : ℚ) ^ (b.leadExponent + 1 - 17) < b.highEnd - b.lowEnd := by
  have hlead := ten_pow_leadExponent_le b hm
  have hstep : (10 : ℚ) ^ (b.leadExponent + 1 - 17) = 10 ^ b.leadExponent / 10 ^ 16 := by
    rw [show b.leadExponent + 1 - 17 = b.leadExponent - 16 by ring, zpow_sub₀ (by norm_num)]
    norm_cast
  have hpow : (0 : ℚ) < 2 ^ (b.exp - 2) := by positivity
  have hsplit : (2 : ℚ) ^ b.exp = 4 * 2 ^ (b.exp - 2) := by
    rw [show b.exp = (b.exp - 2) + 2 by ring, zpow_add₀ (by norm_num)]
    norm_num
    ring
  unfold highEnd lowEnd
  unfold magnitude at hlead
  rw [hstep, div_lt_iff₀ (by norm_num)]
  cases hn : b.narrow
  · -- the gap below equals the gap above: the width is `2^exp`, and the mantissa is below `2^53`
    have hm53 : (b.mant : ℚ) < 2 ^ 53 := by exact_mod_cast hb.mant_lt
    simp only [Bool.false_eq_true, if_false]
    rw [hsplit] at hlead
    nlinarith
  · -- the least mantissa of a binade: the width is three quarters of `2^exp`
    have hm52 : (b.mant : ℚ) = 2 ^ 52 := by exact_mod_cast hb.narrow_mant hn
    simp only [if_true]
    rw [hsplit, hm52] at hlead
    nlinarith

theorem magnitude_eq (b : Binary) : b.magnitude = (4 * b.mant : ℕ) * 2 ^ (b.exp - 2) := by
  unfold magnitude
  rw [show b.exp = (b.exp - 2) + 2 by ring, zpow_add₀ (by norm_num)]
  push_cast
  ring_nf

theorem lowEnd_lt_magnitude (b : Binary) : b.lowEnd < b.magnitude := by
  rw [magnitude_eq, lowEnd]
  have : (0 : ℚ) < 2 ^ (b.exp - 2) := by positivity
  split <;> · push_cast; nlinarith

theorem magnitude_lt_highEnd (b : Binary) : b.magnitude < b.highEnd := by
  rw [magnitude_eq, highEnd]
  have : (0 : ℚ) < 2 ^ (b.exp - 2) := by positivity
  push_cast
  nlinarith

/-- The grid point below the value is at most the value, the next one above it. -/
theorem gridBelow_le (b : Binary) (k : Int) :
    (b.gridBelow k : ℚ) * 10 ^ k ≤ b.magnitude ∧ b.magnitude < (b.gridBelow k + 1 : ℕ) * 10 ^ k := by
  have hD : 0 < (clear 0 k).1 * (clear (b.exp - 2) 0).2 := by
    unfold clear
    simp only [Nat.pow_eq]
    positivity
  rw [magnitude_eq]
  constructor
  · rw [← le_clear_iff, Nat.mul_assoc]
    exact Nat.div_mul_le_self _ _
  · rw [← clear_lt_iff]
    have h := Nat.lt_mul_div_succ (4 * b.mant * (clear (b.exp - 2) 0).1 * (clear 0 k).2) hD
    unfold gridBelow
    calc _ < _ := h
      _ = _ := by ring

theorem gridInside_of_lt (b : Binary) (hm : 0 < b.mant) (k : Int) (d : Nat)
    (hlo : b.lowEnd < d * 10 ^ k) (hhi : d * 10 ^ k < b.highEnd) : b.gridInside k d = true := by
  rw [lowEnd_eq b hm] at hlo
  unfold highEnd at hhi
  unfold gridInside
  dsimp only
  split
  · simp only [Bool.and_eq_true, decide_eq_true_eq]
    exact ⟨(clear_le_iff _ _ _ _).2 hlo.le, (le_clear_iff _ _ _ _).2 (by exact_mod_cast hhi.le)⟩
  · simp only [Bool.and_eq_true, decide_eq_true_eq]
    exact ⟨(clear_lt_iff _ _ _ _).2 hlo, (lt_clear_iff _ _ _ _).2 (by exact_mod_cast hhi)⟩

/-- When the interval is wider than the step, one of the two grid points around the value lies
strictly inside it. -/
theorem gridInside_around (b : Binary) (hm : 0 < b.mant) (k : Int)
    (hwidth : (10 : ℚ) ^ k < b.highEnd - b.lowEnd) :
    b.gridInside k (b.gridBelow k) = true ∨ b.gridInside k (b.gridBelow k + 1) = true := by
  obtain ⟨hbelow, habove⟩ := gridBelow_le b k
  have hlo := lowEnd_lt_magnitude b
  have hhi := magnitude_lt_highEnd b
  by_cases hcase : b.lowEnd < b.gridBelow k * 10 ^ k
  · -- the point below is above the lower end, and below the value
    exact .inl (gridInside_of_lt b hm k _ hcase (by linarith))
  · -- the point below is at most the lower end, so the point above is within a step of it
    push Not at hcase
    right
    push_cast at habove ⊢
    apply gridInside_of_lt b hm k _ (by push_cast; linarith)
    push_cast
    linarith

/-- A double of the shape `classify` gives has a candidate with seventeen digits. -/
theorem onGrid_seventeen_isSome (b : Binary) (hm : 0 < b.mant) (hb : b.Shaped) :
    (b.onGrid 17).isSome := by
  have hround := gridInside_around b hm _ (grid_step_lt_width b hm hb)
  unfold onGrid
  dsimp only
  split
  · split_ifs <;> rfl
  · rfl
  · rfl
  · -- neither neighbour inside contradicts `gridInside_around`
    rename_i hbelow habove
    have hb' : b.gridInside (b.leadExponent + 1 - 17)
        (b.gridBelow (b.leadExponent + 1 - 17)) = false := hbelow
    have ha' : b.gridInside (b.leadExponent + 1 - 17)
        (b.gridBelow (b.leadExponent + 1 - 17) + 1) = false := habove
    rcases hround with h | h
    · rw [hb'] at h
      cases h
    · rw [ha'] at h
      cases h

/-- One step of dropping a trailing zero keeps `d · 10^k`, and a positive `d` positive. -/
theorem trimZeros_foldl (l : List Nat) (d : Nat) (k : Int) :
    let r := l.foldl (fun (p : Nat × Int) _ => if p.1 % 10 = 0 && p.1 ≠ 0 then (p.1 / 10, p.2 + 1)
      else p) (d, k)
    (r.1 : ℚ) * 10 ^ r.2 = d * 10 ^ k ∧ (0 < d → 0 < r.1) := by
  induction l generalizing d k with
  | nil => exact ⟨rfl, id⟩
  | cons x l ih =>
    simp only [List.foldl_cons]
    split
    · rename_i hzero
      simp only [Bool.and_eq_true, decide_eq_true_eq] at hzero
      obtain ⟨hval, hpos⟩ := ih (d / 10) (k + 1)
      refine ⟨?_, fun _ => hpos (by omega)⟩
      have hd : (d : ℚ) = (d / 10 : ℕ) * 10 := by
        exact_mod_cast (Nat.div_mul_cancel (Nat.dvd_of_mod_eq_zero hzero.1)).symm
      rw [hval, hd, zpow_add₀ (by norm_num)]
      ring
    · exact ih d k

theorem trimZeros_value (d : Nat) (k : Int) :
    ((trimZeros d k).1 : ℚ) * 10 ^ (trimZeros d k).2 = d * 10 ^ k ∧
      (0 < d → 0 < (trimZeros d k).1) :=
  trimZeros_foldl _ d k

theorem lowEnd_pos (b : Binary) (hm : 0 < b.mant) : 0 < b.lowEnd := by
  unfold lowEnd
  have : (1 : ℚ) ≤ b.mant := by exact_mod_cast hm
  apply mul_pos _ (by positivity)
  split <;> linarith

/-- The shortest digits of a double of the shape `classify` gives are positive and read back
as the double. -/
theorem shortest_readsBack (b : Binary) (hm : 0 < b.mant) (hb : b.Shaped) :
    0 < b.shortest.1 ∧ b.ReadsBack (b.shortest.1 * 10 ^ b.shortest.2) := by
  -- some number of digits up to seventeen has a candidate; the search stops at the first
  have hsome : ((List.range 17).findSome? fun i => b.onGrid (i + 1)).isSome := by
    rw [List.findSome?_isSome_iff]
    exact ⟨16, by simp, onGrid_seventeen_isSome b hm hb⟩
  obtain ⟨⟨d, k⟩, hhit⟩ := Option.isSome_iff_exists.1 hsome
  obtain ⟨i, -, hi⟩ := List.exists_of_findSome?_eq_some hhit
  have hread := readsBack_of_gridInside b hm k d (gridInside_of_onGrid b _ d k hi).2.2
  have hd : 0 < d := by
    have hlo := lowEnd_pos b hm
    unfold ReadsBack at hread
    rcases Nat.eq_zero_or_pos d with rfl | hd
    · split at hread <;> · simp only [Nat.cast_zero, zero_mul] at hread; linarith [hread.1]
    · exact hd
  obtain ⟨hval, hpos⟩ := trimZeros_value d k
  unfold shortest
  simp only [hhit, Option.getD_some]
  exact ⟨hpos hd, hval ▸ hread⟩

/-! ### Neighbouring doubles -/

/-- The finite double whose bits, the sign apart, are `N`, as `classify` splits it: below
`2^52` a subnormal of exponent `-1074`, above it the mantissa with its leading bit. -/
def ofBits (neg : Bool) (N : Nat) : Binary :=
  if N / 2 ^ 52 = 0 then ⟨neg, N % 2 ^ 52, -1074, false⟩
  else ⟨neg, N % 2 ^ 52 + 2 ^ 52, ((N / 2 ^ 52 : Nat) : Int) - 1075,
    N % 2 ^ 52 = 0 && N / 2 ^ 52 > 1⟩

/-- The upper end of a double's interval is the lower end of the next double's. -/
theorem highEnd_eq_lowEnd_succ (neg : Bool) (N : Nat) :
    (ofBits neg N).highEnd = (ofBits neg (N + 1)).lowEnd := by
  unfold highEnd lowEnd ofBits
  by_cases hwrap : N % 2 ^ 52 = 2 ^ 52 - 1
  · -- the last mantissa of a binade: the next double starts the next binade
    have hsucc : (N + 1) / 2 ^ 52 = N / 2 ^ 52 + 1 := by omega
    have hfrac : (N + 1) % 2 ^ 52 = 0 := by omega
    by_cases hsub : N / 2 ^ 52 = 0
    · simp only [hsub, hsucc, hfrac, hwrap, if_true, zero_add, one_ne_zero, if_false]
      rw [show ((1 : ℕ) : ℤ) - 1075 - 2 = (-1074 : ℤ) - 2 by norm_num]
      generalize (2 : ℚ) ^ ((-1074 : ℤ) - 2) = p
      norm_num
    · simp only [hsub, hsucc, hfrac, hwrap, if_false, Nat.add_eq_zero_iff, one_ne_zero, and_false]
      have hgt : N / 2 ^ 52 + 1 > 1 := by omega
      simp only [hgt, decide_true, Bool.and_self, if_true]
      generalize N / 2 ^ 52 = B
      rw [show ((B + 1 : ℕ) : ℤ) - 1075 - 2 = ((B : ℤ) - 1075 - 2) + 1 by push_cast; ring,
        zpow_add₀ (by norm_num)]
      generalize (2 : ℚ) ^ ((B : ℤ) - 1075 - 2) = p
      norm_num
      ring
  · -- inside a binade: the next mantissa, the same exponent
    have hsucc : (N + 1) / 2 ^ 52 = N / 2 ^ 52 := by omega
    have hfrac : (N + 1) % 2 ^ 52 = N % 2 ^ 52 + 1 := by omega
    by_cases hsub : N / 2 ^ 52 = 0
    · simp only [hsub, hsucc, hfrac, if_true]
      generalize (2 : ℚ) ^ ((-1074 : ℤ) - 2) = p
      push_cast
      ring
    · simp only [hsub, hsucc, hfrac, if_false, Nat.add_eq_zero_iff, one_ne_zero, and_false,
        decide_false, Bool.false_and]
      generalize (2 : ℚ) ^ (((N / 2 ^ 52 : ℕ) : ℤ) - 1075 - 2) = p
      push_cast
      ring

theorem mant_parity_succ (neg : Bool) (N : Nat) :
    (ofBits neg N).mant % 2 ≠ (ofBits neg (N + 1)).mant % 2 := by
  unfold ofBits
  by_cases hwrap : N % 2 ^ 52 = 2 ^ 52 - 1
  · have hsucc : (N + 1) / 2 ^ 52 = N / 2 ^ 52 + 1 := by omega
    have hfrac : (N + 1) % 2 ^ 52 = 0 := by omega
    by_cases hsub : N / 2 ^ 52 = 0 <;>
      simp only [hsub, hsucc, hfrac, hwrap, Nat.add_eq_zero_iff, one_ne_zero, and_false,
        if_true, if_false] <;> omega
  · have hsucc : (N + 1) / 2 ^ 52 = N / 2 ^ 52 := by omega
    have hfrac : (N + 1) % 2 ^ 52 = N % 2 ^ 52 + 1 := by omega
    by_cases hsub : N / 2 ^ 52 = 0 <;> simp only [hsub, hsucc, hfrac, if_true, if_false] <;> omega

theorem lowEnd_lt_highEnd (b : Binary) : b.lowEnd < b.highEnd := by
  unfold lowEnd highEnd
  have : (0 : ℚ) < 2 ^ (b.exp - 2) := by positivity
  split <;> nlinarith

/-- The intervals of the doubles follow one another: the upper end of one is at most the lower
end of any later one, and below it unless the later one is the next. -/
theorem highEnd_le_lowEnd (neg : Bool) (N j : Nat) :
    (ofBits neg N).highEnd ≤ (ofBits neg (N + 1 + j)).lowEnd ∧
      (0 < j → (ofBits neg N).highEnd < (ofBits neg (N + 1 + j)).lowEnd) := by
  induction j with
  | zero =>
    exact ⟨(highEnd_eq_lowEnd_succ neg N).le, fun h => absurd h (Nat.lt_irrefl 0)⟩
  | succ j ih =>
    have hstep : (ofBits neg (N + 1 + j)).lowEnd < (ofBits neg (N + 1 + (j + 1))).lowEnd := by
      rw [show N + 1 + (j + 1) = N + 1 + j + 1 by omega, ← highEnd_eq_lowEnd_succ]
      exact lowEnd_lt_highEnd _
    exact ⟨ih.1.trans hstep.le, fun _ => lt_of_le_of_lt ih.1 hstep⟩

theorem le_highEnd_of_readsBack (b : Binary) (r : ℚ) (h : b.ReadsBack r) : r ≤ b.highEnd := by
  unfold ReadsBack at h
  split at h
  · exact h.2
  · exact h.2.le

theorem lowEnd_le_of_readsBack (b : Binary) (r : ℚ) (h : b.ReadsBack r) : b.lowEnd ≤ r := by
  unfold ReadsBack at h
  split at h
  · exact h.1
  · exact h.1.le

/-- A magnitude that reads back as two doubles of one sign reads back as one double: their
intervals meet at most at an end, which belongs to the one with an even mantissa only. -/
theorem eq_of_readsBack_lt (neg : Bool) (N M : Nat) (r : ℚ) (hlt : N < M)
    (hN : (ofBits neg N).ReadsBack r) (hM : (ofBits neg M).ReadsBack r) : False := by
  obtain ⟨j, rfl⟩ : ∃ j, M = N + 1 + j := ⟨M - N - 1, by omega⟩
  have hhi := le_highEnd_of_readsBack _ r hN
  have hlo := lowEnd_le_of_readsBack _ r hM
  obtain ⟨hle, hstrict⟩ := highEnd_le_lowEnd neg N j
  rcases Nat.eq_zero_or_pos j with rfl | hj
  · -- neighbours: `r` is the common end, which only an even mantissa's interval holds
    have hr : r = (ofBits neg N).highEnd := le_antisymm hhi (hle.trans hlo)
    have hparity := mant_parity_succ neg N
    unfold ReadsBack at hN hM
    rw [Nat.add_zero] at hM hle
    split at hN
    · split at hM
      · omega
      · rw [hr, highEnd_eq_lowEnd_succ] at hM
        exact lt_irrefl _ hM.1
    · rw [hr] at hN
      exact lt_irrefl _ hN.2
  · exact absurd (hstrict hj) (not_lt.2 (hlo.trans hhi))

theorem eq_of_readsBack (neg : Bool) (N M : Nat) (r : ℚ)
    (hN : (ofBits neg N).ReadsBack r) (hM : (ofBits neg M).ReadsBack r) : N = M := by
  rcases lt_trichotomy N M with h | h | h
  · exact (eq_of_readsBack_lt neg N M r h hN hM).elim
  · exact h
  · exact (eq_of_readsBack_lt neg M N r h hM hN).elim

end Binary

/-! ### The bits of a double -/

/-- `classify` reads a finite double as `ofBits` of its bits below the sign. -/
theorem classify_finite (bits : UInt64) (b : Binary) (h : classify bits = .finite b) :
    b = Binary.ofBits (bits.toNat / 2 ^ 63 % 2 = 1) (bits.toNat % 2 ^ 63) := by
  have hlt := bits.toNat_lt
  unfold classify at h
  unfold Binary.ofBits
  simp only [Nat.pow_eq] at h
  split at h
  · split at h <;> cases h
  · rename_i hnotinf
    have hbiased : bits.toNat % 2 ^ 63 / 2 ^ 52 = bits.toNat / 2 ^ 52 % 2 ^ 11 := by omega
    have hfrac : bits.toNat % 2 ^ 63 % 2 ^ 52 = bits.toNat % 2 ^ 52 := by omega
    split at h
    · rename_i hsub
      cases h
      rw [if_pos (by omega), hfrac]
    · rename_i hsub
      cases h
      rw [if_neg (by omega), hfrac, hbiased]
      rfl

theorem classify_infinite (bits : UInt64) (neg : Bool) (h : classify bits = .infinite neg) :
    bits.toNat = (if neg then 2 ^ 63 else 0) + 0x7FF * 2 ^ 52 := by
  have hlt := bits.toNat_lt
  unfold classify at h
  simp only [Nat.pow_eq] at h
  split at h
  · split at h
    · rename_i hexp hfrac
      cases h
      split <;> rename_i hneg <;> simp only [decide_eq_true_eq] at hneg <;> omega
    · cases h
  · split at h <;> cases h

theorem classify_sign (bits : UInt64) :
    bits.toNat = (if bits.toNat / 2 ^ 63 % 2 = 1 then 2 ^ 63 else 0) + bits.toNat % 2 ^ 63 := by
  have hlt := bits.toNat_lt
  split <;> omega

theorem eq_of_toBits_eq {x y : Float} (h : x.toBits = y.toBits) : x = y := by
  rcases x with ⟨⟨bx, vx⟩⟩
  rcases y with ⟨⟨bY, vY⟩⟩
  simp only [Float.toBits] at h
  subst h
  rfl

open Float.Model UnpackedFloat in
/-- A double that is no number has the one bit pattern of the canonical NaN: the model of doubles
admits no other. -/
theorem toBits_of_classify_nan (x : Float) (h : classify x.toBits = .nan) :
    x.toBits.toNat = 0x7FF8000000000000 := by
  have hvalid := x.toModel.valid
  unfold classify at h
  simp only [Nat.pow_eq] at h
  split at h
  · split at h
    · cases h
    · rename_i hexp hfrac
      have hexp' : @unpackExponent Format.binary64 x.toModel.toBits.toBitVec = -1#_ := by
        apply BitVec.eq_of_toNat_eq
        simp only [unpackExponent, BitVec.toNat_cast, BitVec.extractLsb_toNat]
        simp only [Float.toBits] at hexp
        norm_num at hexp ⊢
        omega
      have hmant' : @unpackMantissa Format.binary64 x.toModel.toBits.toBitVec ≠ 0#_ := by
        intro h0
        have := congrArg BitVec.toNat h0
        simp only [unpackMantissa, BitVec.toNat_cast, BitVec.extractLsb_toNat] at this
        simp only [Float.toBits] at hfrac
        norm_num at this hfrac
        omega
      have hnan := hvalid.eq_packedNaN hexp' hmant'
      have := congrArg BitVec.toNat hnan
      simp only [Float.toBits]
      rw [UInt64.toNat, this]
      decide
  · split at h <;> cases h


theorem Binary.ofBits_neg (neg : Bool) (N : Nat) : (Binary.ofBits neg N).neg = neg := by
  unfold Binary.ofBits
  split <;> rfl

theorem Binary.ofBits_mant (neg : Bool) (N : Nat) :
    (Binary.ofBits neg N).mant = if N / 2 ^ 52 = 0 then N % 2 ^ 52 else N % 2 ^ 52 + 2 ^ 52 := by
  unfold Binary.ofBits
  split <;> rfl

theorem classify_shaped (bits : UInt64) (b : Binary) (h : classify bits = .finite b) :
    b.Shaped := by
  rw [classify_finite bits b h]
  constructor
  · rw [Binary.ofBits_mant]
    split <;> omega
  · unfold Binary.ofBits
    split
    · intro h
      cases h
    · simp only [Bool.and_eq_true, decide_eq_true_eq]
      omega

/-- Two finite doubles of one sign whose rounding intervals hold one magnitude are one double. -/
theorem float_eq_of_readsBack (x y : Float) (bx bY : Binary) (hx : classify x.toBits = .finite bx)
    (hy : classify y.toBits = .finite bY) (hneg : bx.neg = bY.neg) (r : ℚ)
    (hrx : bx.ReadsBack r) (hry : bY.ReadsBack r) : x = y := by
  rw [classify_finite _ _ hx] at hneg hrx
  rw [classify_finite _ _ hy] at hneg hry
  rw [Binary.ofBits_neg, Binary.ofBits_neg] at hneg
  rw [hneg] at hrx
  -- one sign and one interval: the same bits below the sign, so the same bits
  have hlow := Binary.eq_of_readsBack _ _ _ r hrx hry
  apply eq_of_toBits_eq
  apply UInt64.toNat_inj.1
  rw [classify_sign x.toBits, classify_sign y.toBits, hlow]
  simp only [decide_eq_decide] at hneg
  rw [if_congr hneg rfl rfl]

/-- Two doubles of one sign and mantissa zero are one double: the zero of that sign. -/
theorem eq_of_mant_zero (x y : Float) (bx bY : Binary) (hx : classify x.toBits = .finite bx)
    (hy : classify y.toBits = .finite bY) (hneg : bx.neg = bY.neg) (hmx : bx.mant = 0)
    (hmy : bY.mant = 0) : x = y := by
  rw [classify_finite _ _ hx] at hneg hmx
  rw [classify_finite _ _ hy] at hneg hmy
  rw [Binary.ofBits_neg, Binary.ofBits_neg] at hneg
  have hzero : ∀ s N, (Binary.ofBits s N).mant = 0 → N = 0 := by
    intro s N hN
    rw [Binary.ofBits_mant] at hN
    split at hN <;> omega
  have hx0 := hzero _ _ hmx
  have hy0 := hzero _ _ hmy
  apply eq_of_toBits_eq
  apply UInt64.toNat_inj.1
  rw [classify_sign x.toBits, classify_sign y.toBits, hx0, hy0]
  simp only [decide_eq_decide] at hneg
  rw [if_congr hneg rfl rfl]

end BlockPlan.Decimal
