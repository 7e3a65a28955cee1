import BlockPlan.Proofs.RoundingInterval
import BlockPlan.Decimal.Nearest

/-!
# Reading a decimal back as a double

`nearestBits num den` takes the quotient of `num / den` at the scale `nearestScale`, where it has
53 bits (fewer for subnormal doubles), rounds it by its remainder (`roundHalfEven`: to the
nearest whole number, a tie to the even one, `RoundsTo`) and packs the rounded mantissa
(`packBits`). Main statements:

* `readsBack_nearestBits`: below the upper end of the largest double's interval, the bits found
  are those of a finite double whose rounding interval holds `num / den`;
* `nearestDouble_eq`: a decimal in the rounding interval of a finite double gives that very
  double, its sign, zeros and subnormals included;
* `ofBits_toBits`: the bits of a double give the double back, the model of doubles keeping every
  bit pattern but those of NaN, of which it has one.
-/

namespace BlockPlan.Decimal

/-! ## The bits of a double -/

section Bits

open Float.Model UnpackedFloat

theorem toNat_packComponents (s : Sign) (e : BitVec 11) (m : BitVec 52) :
    (packComponents Format.binary64 s e m).toNat =
      s.toBitVec.toNat * 2 ^ 63 + e.toNat * 2 ^ 52 + m.toNat := by
  unfold packComponents
  have hm := m.isLt
  have he := e.isLt
  simp only [BitVec.toNat_append, Format.numBits]
  rw [← Nat.shiftLeft_add_eq_or_of_lt hm, ← Nat.shiftLeft_add_eq_or_of_lt he]
  simp only [Nat.shiftLeft_eq]
  ring

theorem toNat_unpackExponent (b : BitVec 64) :
    (@unpackExponent Format.binary64 b).toNat = b.toNat / 2 ^ 52 % 2 ^ 11 := by
  simp only [unpackExponent, BitVec.toNat_cast, BitVec.extractLsb_toNat, Nat.shiftRight_eq_div_pow]

theorem toNat_unpackMantissa (b : BitVec 64) :
    (@unpackMantissa Format.binary64 b).toNat = b.toNat % 2 ^ 52 := by
  simp only [unpackMantissa, BitVec.toNat_cast, BitVec.extractLsb_toNat]
  norm_num

theorem toNat_unpackSign (b : BitVec 64) :
    (@unpackSign Format.binary64 b).toNat = b.toNat / 2 ^ 63 := by
  simp only [unpackSign, BitVec.toNat_cast, BitVec.extractLsb_toNat, Nat.shiftRight_eq_div_pow]
  have := b.isLt
  omega

theorem toBitVec_ofBitVec (v : BitVec 1) : (Sign.ofBitVec v).toBitVec = v := by
  unfold Sign.ofBitVec
  split
  · rename_i h
    rw [h]
    rfl
  · rename_i h
    have : v = 1#1 := by bv_omega
    rw [this]
    rfl

theorem packComponents_unpack (b : BitVec 64) :
    packComponents Format.binary64 (Sign.ofBitVec (@unpackSign Format.binary64 b))
      (@unpackExponent Format.binary64 b) (@unpackMantissa Format.binary64 b) = b := by
  apply BitVec.eq_of_toNat_eq
  rw [toNat_packComponents, toBitVec_ofBitVec, toNat_unpackSign, toNat_unpackExponent,
    toNat_unpackMantissa]
  have := b.isLt
  omega

/-- Unpacking and packing again keeps every bit pattern the model of doubles admits. -/
theorem pack_unpack (b : BitVec 64) (hv : Format.binary64.Valid b) :
    UnpackedFloat.pack Format.binary64 (UnpackedFloat.unpack Format.binary64 b) = b := by
  have hFlt : (@unpackMantissa Format.binary64 b).toNat < 2 ^ 52 :=
    (@unpackMantissa Format.binary64 b).isLt
  unfold UnpackedFloat.unpack
  dsimp only
  split
  · rename_i hexp
    split
    · -- infinity
      rename_i hmant
      conv_rhs => rw [← packComponents_unpack b, hexp, hmant]
      simp only [UnpackedFloat.pack, packedInfinity]
      rfl
    · -- NaN, which the model keeps in one pattern only
      rename_i hmant
      exact (hv.eq_packedNaN hexp hmant).symm
  · rename_i hnotinf
    split
    · rename_i hsub
      split
      · -- zero
        rename_i hmant
        conv_rhs => rw [← packComponents_unpack b, hsub, hmant]
        simp only [UnpackedFloat.pack, packedZero]
        rfl
      · -- subnormal: the mantissa has fewer than 53 bits
        rename_i hmant
        have h0 : (@unpackExponent Format.binary64 b).toNat = 0 := by rw [hsub]; rfl
        have hlog : (@unpackMantissa Format.binary64 b).toNat.log2 < 52 :=
          (Nat.log2_lt (by intro h; exact hmant (BitVec.eq_of_toNat_eq h))).2 hFlt
        simp only [UnpackedFloat.pack, Format.exponentBias, Format.mantissaBits, h0]
        rw [if_neg (by norm_num), if_neg (by omega), ← hsub, BitVec.ofNat_toNat, BitVec.setWidth_eq]
        exact packComponents_unpack b
    · -- normal: the leading bit is put back and dropped again
      rename_i hnormal
      have hne0 : (@unpackExponent Format.binary64 b).toNat ≠ 0 := by
        intro h
        exact hnormal (BitVec.eq_of_toNat_eq h)
      have hne1 : (@unpackExponent Format.binary64 b).toNat ≠ 2047 := by
        intro h
        exact hnotinf (BitVec.eq_of_toNat_eq h)
      have hElt : (@unpackExponent Format.binary64 b).toNat < 2 ^ 11 :=
        (@unpackExponent Format.binary64 b).isLt
      have hm : (1#1 ++ @unpackMantissa Format.binary64 b).toNat =
          2 ^ 52 + (@unpackMantissa Format.binary64 b).toNat := by
        rw [BitVec.toNat_append, ← Nat.shiftLeft_add_eq_or_of_lt hFlt]
        rfl
      have hlog : (2 ^ 52 + (@unpackMantissa Format.binary64 b).toNat).log2 = 52 := by
        apply le_antisymm
        · exact Nat.lt_succ_iff.1 ((Nat.log2_lt (by positivity)).2 (by omega))
        · exact (Nat.le_log2 (by positivity)).2 (by omega)
      simp only [UnpackedFloat.pack, Format.exponentBias, Format.mantissaBits, hm, hlog]
      rw [if_neg (by norm_num; omega), if_true]
      conv_rhs => rw [← packComponents_unpack b]
      congr 1
      · apply BitVec.eq_of_toNat_eq
        simp only [BitVec.toNat_ofNat]
        norm_num
        omega
      · apply BitVec.eq_of_toNat_eq
        simp only [BitVec.toNat_ofNat]
        omega

theorem ofBits_toBits (x : Float) : Float.ofBits x.toBits = x := by
  rcases x with ⟨⟨bits, hv⟩⟩
  have h := pack_unpack bits.toBitVec hv
  simp only [Float.ofBits, Float.toBits, Float.Model.ofBits, Float.Model.pack, h]

/-- A finite double is split by `classify` as one. -/
theorem classify_of_isFinite (x : Float) (hx : x.isFinite = true) :
    ∃ b, classify x.toBits = .finite b := by
  unfold classify
  simp only [Nat.pow_eq]
  split
  · -- the exponent field is all ones: the double is infinite or no number
    rename_i hfield
    have hexp : @unpackExponent Format.binary64 x.toModel.toBits.toBitVec = -1#_ := by
      apply BitVec.eq_of_toNat_eq
      rw [toNat_unpackExponent]
      simp only [Float.toBits] at hfield
      norm_num
      exact hfield
    simp only [Float.isFinite, Float.Model.isFinite, Float.Model.unpack, UnpackedFloat.unpack,
      hexp, if_true] at hx
    by_cases hm : @unpackMantissa Format.binary64 x.toModel.toBits.toBitVec = 0#_ <;>
      simp [hm, UnpackedFloat.isFinite] at hx
  · split
    · exact ⟨_, rfl⟩
    · exact ⟨_, rfl⟩

end Bits

/-! ## Rounding a quotient -/

/-- `x` rounds to the whole number `m`, a tie going to the even one: `x` lies within a half of
`m`, the half itself counting only when `m` is even. -/
def RoundsTo (x : ℚ) (m : ℕ) : Prop :=
  if m % 2 = 0 then (m : ℚ) - 1 / 2 ≤ x ∧ x ≤ m + 1 / 2 else (m : ℚ) - 1 / 2 < x ∧ x < m + 1 / 2

theorem RoundsTo.le {x : ℚ} {m : ℕ} (h : RoundsTo x m) : (m : ℚ) - 1 / 2 ≤ x ∧ x ≤ m + 1 / 2 := by
  unfold RoundsTo at h
  split at h
  · exact h
  · exact ⟨h.1.le, h.2.le⟩

theorem scaled_cast (num den : ℕ) (hden : 0 < den) (q : ℤ) :
    ((num * 2 ^ (-q).toNat : ℕ) : ℚ) / ((den * 2 ^ q.toNat : ℕ) : ℚ) = num / den / 2 ^ q := by
  push_cast
  rw [pow_toNat_eq 2 two_ne_zero q]
  have : (den : ℚ) ≠ 0 := by exact_mod_cast hden.ne'
  field_simp

theorem scaledQuotient_lt_iff (num den : ℕ) (hden : 0 < den) (q : ℤ) (t : ℕ) :
    (scaledQuotient num den q).1 < t ↔ (num : ℚ) / den / 2 ^ q < t := by
  unfold scaledQuotient
  simp only [Nat.pow_eq]
  have hd : 0 < den * 2 ^ q.toNat := by positivity
  rw [Nat.div_lt_iff_lt_mul hd, ← scaled_cast num den hden q,
    div_lt_iff₀ (by exact_mod_cast hd)]
  norm_cast

@[simp] theorem roundHalfEven_lt (Q : ℕ) : roundHalfEven (Q, .lt) = Q := rfl

@[simp] theorem roundHalfEven_eq (Q : ℕ) :
    roundHalfEven (Q, .eq) = if Q % 2 = 1 then Q + 1 else Q := by
  simp [roundHalfEven]

@[simp] theorem roundHalfEven_gt (Q : ℕ) : roundHalfEven (Q, .gt) = Q + 1 := rfl

/-- Rounding `n / d` by its remainder rounds to the nearest whole number, a tie to the even one. -/
theorem roundsTo_div (n d : ℕ) (hd : 0 < d) :
    RoundsTo ((n : ℚ) / d) (roundHalfEven (n / d, compare (2 * (n % d)) d)) := by
  have hdq : (0 : ℚ) < d := by exact_mod_cast hd
  -- `n / d` is the quotient and the fraction of the remainder
  have hsplit : (n : ℚ) / d = (n / d : ℕ) + ((n % d : ℕ) : ℚ) / d := by
    have hn : (n : ℚ) = d * (n / d : ℕ) + (n % d : ℕ) := by
      exact_mod_cast (Nat.div_add_mod n d).symm
    rw [hn]
    field_simp
  have hy0 : (0 : ℚ) ≤ ((n % d : ℕ) : ℚ) / d := by positivity
  have hy1 : ((n % d : ℕ) : ℚ) / d < 1 := by
    rw [div_lt_one hdq]
    exact_mod_cast Nat.mod_lt n hd
  rw [hsplit]
  generalize n / d = Q
  generalize n % d = R at hy0 hy1
  unfold RoundsTo
  cases hc : compare (2 * R) d with
  | lt =>
    have hhalf : ((R : ℕ) : ℚ) / d < 1 / 2 := by
      rw [div_lt_iff₀ hdq]
      have : (2 : ℚ) * R < d := by exact_mod_cast Nat.compare_eq_lt.1 hc
      linarith
    rw [roundHalfEven_lt]
    split <;> constructor <;> linarith
  | eq =>
    -- a tie: the fraction is a half, and the even neighbour is taken
    have hhalf : ((R : ℕ) : ℚ) / d = 1 / 2 := by
      rw [div_eq_iff hdq.ne']
      have : (2 : ℚ) * R = d := by exact_mod_cast Nat.compare_eq_eq.1 hc
      linarith
    rw [roundHalfEven_eq]
    by_cases hodd : Q % 2 = 1
    · rw [if_pos hodd, if_pos (by omega)]
      push_cast
      constructor <;> linarith
    · rw [if_neg hodd, if_pos (by omega)]
      constructor <;> linarith
  | gt =>
    have hhalf : 1 / 2 < ((R : ℕ) : ℚ) / d := by
      rw [lt_div_iff₀ hdq]
      have : (d : ℚ) < 2 * R := by exact_mod_cast Nat.compare_eq_gt.1 hc
      linarith
    rw [roundHalfEven_gt]
    push_cast
    split <;> constructor <;> linarith

theorem roundsTo_roundHalfEven (num den : ℕ) (hden : 0 < den) (q : ℤ) :
    RoundsTo ((num : ℚ) / den / 2 ^ q) (roundHalfEven (scaledQuotient num den q)) := by
  rw [← scaled_cast num den hden q]
  unfold scaledQuotient
  simp only [Nat.pow_eq]
  exact roundsTo_div _ _ (by positivity)

/-! ## Packing the rounded mantissa -/

namespace Binary

/-- A mantissa that rounds the magnitude at the double's scale reads back, provided that at the
least mantissa of a binade, whose gap below is narrower, the magnitude is not below the double. -/
theorem readsBack_of_roundsTo (b : Binary) (r : ℚ) (h : RoundsTo (r / 2 ^ b.exp) b.mant)
    (hnarrow : b.narrow = true → (b.mant : ℚ) ≤ r / 2 ^ b.exp) : b.ReadsBack r := by
  have hp : (0 : ℚ) < 2 ^ b.exp := by positivity
  have hquarter : (2 : ℚ) ^ (b.exp - 2) = 2 ^ b.exp / 4 := by
    rw [zpow_sub₀ two_ne_zero]
    norm_num
  have hr : r = r / 2 ^ b.exp * 2 ^ b.exp := (div_mul_cancel₀ r hp.ne').symm
  generalize r / 2 ^ b.exp = x at h hnarrow hr
  subst hr
  unfold ReadsBack lowEnd highEnd RoundsTo at *
  rw [hquarter]
  cases hn : b.narrow
  · simp only [Bool.false_eq_true, if_false]
    split at h <;> rename_i hpar <;> simp only [hpar, if_true, if_false] <;>
      constructor <;> nlinarith [h.1, h.2]
  · have hx := hnarrow hn
    simp only [if_true]
    split at h <;> rename_i hpar <;> simp only [hpar, if_true, if_false] <;>
      constructor <;> nlinarith [h.1, h.2]

/-- A mantissa rounded up to `2^53` reads back as the least mantissa of the next binade. -/
theorem readsBack_carry (neg : Bool) (q : ℤ) (r : ℚ) (h : RoundsTo (r / 2 ^ q) (2 ^ 53)) :
    (⟨neg, 2 ^ 52, q + 1, true⟩ : Binary).ReadsBack r := by
  have hp : (0 : ℚ) < 2 ^ q := by positivity
  have hhalf : (2 : ℚ) ^ (q + 1 - 2) = 2 ^ q / 2 := by
    rw [show q + 1 - 2 = q - 1 by ring, zpow_sub_one₀ two_ne_zero]
    ring
  have hr : r = r / 2 ^ q * 2 ^ q := (div_mul_cancel₀ r hp.ne').symm
  obtain ⟨hlo, hhi⟩ := h.le
  generalize r / 2 ^ q = x at hlo hhi hr
  subst hr
  unfold ReadsBack lowEnd highEnd
  simp only [if_true, hhalf, show (2 ^ 52 : ℕ) % 2 = 0 by norm_num]
  push_cast at hlo hhi ⊢
  constructor <;> nlinarith

theorem ofBits_subnormal (neg : Bool) (f : ℕ) (hf : f < 2 ^ 52) :
    ofBits neg f = ⟨neg, f, -1074, false⟩ := by
  unfold ofBits
  rw [if_pos (Nat.div_eq_of_lt hf), Nat.mod_eq_of_lt hf]

theorem ofBits_normal (neg : Bool) (E f : ℕ) (hE : 0 < E) (hf : f < 2 ^ 52) :
    ofBits neg (E * 2 ^ 52 + f) = ⟨neg, f + 2 ^ 52, E - 1075, f = 0 && E > 1⟩ := by
  unfold ofBits
  have hdiv : (E * 2 ^ 52 + f) / 2 ^ 52 = E := by omega
  have hmod : (E * 2 ^ 52 + f) % 2 ^ 52 = f := by omega
  rw [hdiv, hmod, if_neg hE.ne']

theorem highEnd_max (neg : Bool) :
    (ofBits neg 0x7FEFFFFFFFFFFFFF).highEnd = (2 ^ 53 - 1 / 2) * 2 ^ (971 : ℤ) := by
  rw [show 0x7FEFFFFFFFFFFFFF = 2046 * 2 ^ 52 + (2 ^ 52 - 1) by norm_num,
    ofBits_normal neg 2046 _ (by norm_num) (by norm_num)]
  unfold highEnd
  rw [show ((2046 : ℕ) : ℤ) - 1075 - 2 = 971 - 2 by norm_num, zpow_sub₀ two_ne_zero]
  generalize (2 : ℚ) ^ (971 : ℤ) = p
  push_cast
  ring

end Binary

/-- Packing a mantissa that rounds the magnitude at an exponent where the magnitude has 53 bits,
or at the least exponent: the bits of the double that reads back, or infinity when the magnitude
is at least the upper end of the largest double's interval. -/
theorem packBits_spec (neg : Bool) (m : ℕ) (q : ℤ) (r : ℚ) (hround : RoundsTo (r / 2 ^ q) m)
    (hq : -1074 ≤ q) (hhi : r / 2 ^ q < 2 ^ 53) (hlo : q ≠ -1074 → 2 ^ 52 ≤ r / 2 ^ q) :
    (packBits m q < 0x7FF0000000000000 ∧ (Binary.ofBits neg (packBits m q)).ReadsBack r) ∨
      (packBits m q = 0x7FF0000000000000 ∧ (Binary.ofBits neg 0x7FEFFFFFFFFFFFFF).highEnd ≤ r) := by
  have hp : (0 : ℚ) < 2 ^ q := by positivity
  have hr : r = r / 2 ^ q * 2 ^ q := (div_mul_cancel₀ r hp.ne').symm
  obtain ⟨hmlo, hmhi⟩ := hround.le
  have hm : m ≤ 2 ^ 53 := by
    have : (m : ℚ) < (2 ^ 53 + 1 : ℕ) := by push_cast; linarith
    have := Nat.cast_lt.1 this
    omega
  unfold packBits
  simp only [Nat.pow_eq]
  by_cases hcarry : m = 2 ^ 53
  · -- rounded up to `2^53`: the least mantissa of the next binade
    subst hcarry
    rw [if_pos rfl]
    dsimp only
    rw [if_neg (lt_irrefl _)]
    by_cases hover : q + 1 + 1075 ≥ 2047
    · right
      rw [if_pos hover]
      refine ⟨rfl, ?_⟩
      have h971 : (2 : ℚ) ^ (971 : ℤ) ≤ 2 ^ q := zpow_le_zpow_right₀ (by norm_num) (by omega)
      rw [Binary.highEnd_max, hr]
      push_cast at hmlo
      exact mul_le_mul hmlo h971 (by positivity) (by linarith)
    · left
      rw [if_neg hover, Nat.sub_self, Nat.add_zero]
      refine ⟨by omega, ?_⟩
      rw [← Nat.add_zero ((q + 1 + 1075).toNat * 2 ^ 52),
        Binary.ofBits_normal neg _ 0 (by omega) (by norm_num)]
      have hexp : (((q + 1 + 1075).toNat : ℕ) : ℤ) - 1075 = q + 1 := by omega
      have hwide : (0 = 0 && (q + 1 + 1075).toNat > 1) = true := by
        simp only [decide_true, Bool.true_and, decide_eq_true_eq]
        omega
      rw [hexp, hwide, Nat.zero_add]
      exact Binary.readsBack_carry neg q r hround
  · rw [if_neg hcarry]
    dsimp only
    by_cases hsub : m < 2 ^ 52
    · -- below `2^52` only at the least exponent: a subnormal
      rw [if_pos hsub]
      have hq' : q = -1074 := by
        by_contra hne
        have hx := hlo hne
        have : (m : ℚ) + 1 ≤ 2 ^ 52 := by exact_mod_cast hsub
        linarith
      subst hq'
      left
      refine ⟨by omega, ?_⟩
      rw [Binary.ofBits_subnormal neg m hsub]
      exact Binary.readsBack_of_roundsTo _ r hround (fun h => absurd h Bool.false_ne_true)
    · rw [if_neg hsub]
      by_cases hover : q + 1075 ≥ 2047
      · -- beyond the largest exponent: infinity
        right
        rw [if_pos hover]
        refine ⟨rfl, ?_⟩
        have h972 : (2 : ℚ) ^ (972 : ℤ) ≤ 2 ^ q := zpow_le_zpow_right₀ (by norm_num) (by omega)
        have h2 : (2 : ℚ) ^ (972 : ℤ) = 2 * 2 ^ (971 : ℤ) := by
          rw [show (972 : ℤ) = 971 + 1 by norm_num, zpow_add_one₀ two_ne_zero]
          ring
        have h971 : (0 : ℚ) < 2 ^ (971 : ℤ) := by positivity
        have hx := hlo (by omega)
        rw [Binary.highEnd_max, hr]
        calc (2 ^ 53 - 1 / 2) * (2 : ℚ) ^ (971 : ℤ) ≤ 2 ^ 52 * 2 ^ (972 : ℤ) := by
              rw [h2]
              generalize (2 : ℚ) ^ (971 : ℤ) = P at h971 ⊢
              linarith
          _ ≤ r / 2 ^ q * 2 ^ q := mul_le_mul hx h972 (by positivity) (by linarith)
      · -- a normal double
        left
        rw [if_neg hover]
        refine ⟨by omega, ?_⟩
        rw [Binary.ofBits_normal neg _ _ (by omega) (by omega)]
        have hexp : (((q + 1075).toNat : ℕ) : ℤ) - 1075 = q := by omega
        have hmant : m - 2 ^ 52 + 2 ^ 52 = m := by omega
        rw [hexp, hmant]
        refine Binary.readsBack_of_roundsTo _ r hround fun hn => ?_
        simp only [Bool.and_eq_true, decide_eq_true_eq] at hn
        have hx := hlo (by omega)
        have : m = 2 ^ 52 := by omega
        rw [this]
        push_cast
        exact hx

/-! ## The scale of the rounding -/

/-- At the first guess of the scale, from the bit lengths of `num` and `den`, the scaled value is
strictly between `2^51` and `2^53`. -/
theorem scaled_guess (num den : ℕ) (hnum : 0 < num) (hden : 0 < den) :
    (2 : ℚ) ^ 51 < num / den / 2 ^ ((num.log2 : ℤ) - den.log2 - 52) ∧
      (num : ℚ) / den / 2 ^ ((num.log2 : ℤ) - den.log2 - 52) < 2 ^ 53 := by
  have ha : (2 : ℚ) ^ num.log2 ≤ num := by exact_mod_cast Nat.log2_self_le hnum.ne'
  have ha' : (num : ℚ) < 2 * 2 ^ num.log2 := by
    have := Nat.lt_log2_self (n := num)
    rw [pow_succ] at this
    have : (num : ℚ) < (2 ^ num.log2 * 2 : ℕ) := by exact_mod_cast this
    push_cast at this
    linarith
  have hb : (2 : ℚ) ^ den.log2 ≤ den := by exact_mod_cast Nat.log2_self_le hden.ne'
  have hb' : (den : ℚ) < 2 * 2 ^ den.log2 := by
    have := Nat.lt_log2_self (n := den)
    rw [pow_succ] at this
    have : (den : ℚ) < (2 ^ den.log2 * 2 : ℕ) := by exact_mod_cast this
    push_cast at this
    linarith
  have hscale : (num : ℚ) / den / 2 ^ ((num.log2 : ℤ) - den.log2 - 52) =
      num * 2 ^ den.log2 * 2 ^ 52 / (den * 2 ^ num.log2) := by
    rw [zpow_sub₀ two_ne_zero, zpow_sub₀ two_ne_zero, zpow_natCast, zpow_natCast]
    have : (den : ℚ) ≠ 0 := by exact_mod_cast hden.ne'
    field_simp
  rw [hscale]
  have hpa : (0 : ℚ) < 2 ^ num.log2 := by positivity
  have hpb : (0 : ℚ) < 2 ^ den.log2 := by positivity
  have hden' : (0 : ℚ) < den := by exact_mod_cast hden
  constructor
  · rw [lt_div_iff₀ (by positivity)]
    calc (2 : ℚ) ^ 51 * (den * 2 ^ num.log2) < 2 ^ 51 * (2 * 2 ^ den.log2 * 2 ^ num.log2) := by
          gcongr
      _ = 2 ^ num.log2 * 2 ^ den.log2 * 2 ^ 52 := by ring
      _ ≤ num * 2 ^ den.log2 * 2 ^ 52 := by gcongr
  · rw [div_lt_iff₀ (by positivity)]
    calc (num : ℚ) * 2 ^ den.log2 * 2 ^ 52 < 2 * 2 ^ num.log2 * 2 ^ den.log2 * 2 ^ 52 := by
          gcongr
      _ = 2 ^ 53 * (2 ^ den.log2 * 2 ^ num.log2) := by ring
      _ ≤ 2 ^ 53 * (den * 2 ^ num.log2) := by gcongr

/-- The scale of the rounding: at least the least exponent, the scaled value below `2^53`, and at
least `2^52` unless the scale is the least exponent. -/
theorem nearestScale_spec (num den : ℕ) (hnum : 0 < num) (hden : 0 < den) :
    -1074 ≤ nearestScale num den ∧ (num : ℚ) / den / 2 ^ nearestScale num den < 2 ^ 53 ∧
      (nearestScale num den ≠ -1074 → 2 ^ 52 ≤ (num : ℚ) / den / 2 ^ nearestScale num den) := by
  obtain ⟨hg51, hg53⟩ := scaled_guess num den hnum hden
  generalize hg : (num.log2 : ℤ) - den.log2 - 52 = g at hg51 hg53
  have hfit : (scaledQuotient num den g).1 < Nat.pow 2 53 := by
    rw [Nat.pow_eq, scaledQuotient_lt_iff num den hden]
    exact_mod_cast hg53
  -- the scale before clamping: the guess, or one less to double a value below `2^52`
  have h3 : 2 ^ 52 ≤ (num : ℚ) / den / 2 ^ (if Nat.pow 2 52 ≤ (scaledQuotient num den g).1 then g
        else g - 1) ∧
      (num : ℚ) / den / 2 ^ (if Nat.pow 2 52 ≤ (scaledQuotient num den g).1 then g else g - 1) <
        2 ^ 53 := by
    split
    · rename_i hwide
      rw [Nat.pow_eq, ← not_lt, scaledQuotient_lt_iff num den hden] at hwide
      push_cast at hwide
      exact ⟨not_lt.1 hwide, hg53⟩
    · rename_i hnarrow
      rw [Nat.pow_eq, not_le, scaledQuotient_lt_iff num den hden] at hnarrow
      push_cast at hnarrow
      have hdouble : (num : ℚ) / den / 2 ^ (g - 1) = 2 * (num / den / 2 ^ g) := by
        rw [zpow_sub_one₀ two_ne_zero]
        field_simp
      rw [hdouble]
      constructor <;> linarith
  unfold nearestScale
  simp only [hg, hfit, if_true]
  generalize (if Nat.pow 2 52 ≤ (scaledQuotient num den g).1 then g else g - 1) = q3 at h3
  split
  · -- clamped to the least exponent: the value only shrinks
    rename_i hlow
    have hshrink : (num : ℚ) / den / 2 ^ (-1074 : ℤ) ≤ num / den / 2 ^ q3 := by
      apply div_le_div_of_nonneg_left (by positivity) (by positivity)
      exact zpow_le_zpow_right₀ (by norm_num) hlow.le
    exact ⟨le_refl _, lt_of_le_of_lt hshrink h3.2, fun h => absurd rfl h⟩
  · rename_i hlow
    exact ⟨by omega, h3.2, fun _ => h3.1⟩

/-- Below the upper end of the largest double's interval, `nearestBits` gives the bits of a finite
double that reads back `num / den`. -/
theorem readsBack_nearestBits (neg : Bool) (num den : ℕ) (hnum : 0 < num) (hden : 0 < den)
    (hr : (num : ℚ) / den < (Binary.ofBits neg 0x7FEFFFFFFFFFFFFF).highEnd) :
    nearestBits num den < 0x7FF0000000000000 ∧
      (Binary.ofBits neg (nearestBits num den)).ReadsBack (num / den) := by
  obtain ⟨hq, hhi, hlo⟩ := nearestScale_spec num den hnum hden
  rcases packBits_spec neg _ _ _ (roundsTo_roundHalfEven num den hden _) hq hhi hlo with
    h | ⟨-, hmax⟩
  · exact h
  · exact absurd hmax (not_le.2 hr)

/-! ## The double nearest a decimal -/

theorem digitCount_bounds (N : ℕ) (hN : 0 < N) :
    10 ^ (digitCount N - 1) ≤ N ∧ N < 10 ^ digitCount N := by
  unfold digitCount
  have hL : 0 < (Nat.toDigits 10 N).length := Nat.length_toDigits_pos
  constructor
  · rcases Nat.eq_zero_or_pos ((Nat.toDigits 10 N).length - 1) with h0 | hpos
    · rw [h0, pow_zero]
      exact hN
    · by_contra hlt
      have := (Nat.length_toDigits_le_iff (b := 10) (n := N) (by norm_num) hpos).2 (by omega)
      omega
  · exact (Nat.length_toDigits_le_iff (by norm_num) hL).1 le_rfl

theorem lowBits_lt_of_classify_finite (bits : UInt64) (b : Binary)
    (h : classify bits = .finite b) : bits.toNat % 2 ^ 63 < 0x7FF0000000000000 := by
  have hlt := bits.toNat_lt
  unfold classify at h
  simp only [Nat.pow_eq] at h
  split at h
  · split at h <;> cases h
  · rename_i hnotinf
    omega

namespace Binary

/-- Every magnitude in the interval of a finite double is below the upper end of the largest
double's interval. -/
theorem lt_highEnd_max (neg : Bool) (M : ℕ) (hM : M < 0x7FF0000000000000) (r : ℚ)
    (h : (ofBits neg M).ReadsBack r) : r < (ofBits neg 0x7FEFFFFFFFFFFFFF).highEnd := by
  rcases Nat.lt_or_ge M 0x7FEFFFFFFFFFFFFF with hlt | hge
  · -- a smaller double's interval ends where a later one's begins
    obtain ⟨j, hj⟩ : ∃ j, 0x7FEFFFFFFFFFFFFF = M + 1 + j := ⟨0x7FEFFFFFFFFFFFFF - M - 1, by omega⟩
    have hnext := (highEnd_le_lowEnd neg M j).1
    rw [← hj] at hnext
    calc r ≤ (ofBits neg M).highEnd := le_highEnd_of_readsBack _ _ h
      _ ≤ (ofBits neg 0x7FEFFFFFFFFFFFFF).lowEnd := hnext
      _ < (ofBits neg 0x7FEFFFFFFFFFFFFF).highEnd := lowEnd_lt_highEnd _
  · -- the largest double has an odd mantissa, so its upper end is left out
    have hmax : M = 0x7FEFFFFFFFFFFFFF := by omega
    subst hmax
    unfold ReadsBack at h
    rw [if_neg (by rw [ofBits_mant]; norm_num)] at h
    exact h.2

/-- The least positive double is `2^-1074`, so a positive mantissa has its interval above
`2^-1075`. -/
theorem two_pow_le_lowEnd (neg : Bool) (N : ℕ) (hm : 0 < (ofBits neg N).mant) :
    (2 : ℚ) ^ (-1075 : ℤ) ≤ (ofBits neg N).lowEnd := by
  have hexp : -1074 ≤ (ofBits neg N).exp := by
    unfold ofBits
    split
    · exact le_refl _
    · rename_i h
      simp only
      omega
  have hpow : (2 : ℚ) ^ (-1076 : ℤ) ≤ 2 ^ ((ofBits neg N).exp - 2) :=
    zpow_le_zpow_right₀ (by norm_num) (by omega)
  have hm1 : (1 : ℚ) ≤ (ofBits neg N).mant := by exact_mod_cast hm
  have hcoef : (2 : ℚ) ≤ 4 * (ofBits neg N).mant - if (ofBits neg N).narrow then 1 else 2 := by
    split <;> linarith
  have htwo : (2 : ℚ) ^ (-1075 : ℤ) = 2 * 2 ^ (-1076 : ℤ) := by
    rw [show (-1075 : ℤ) = -1076 + 1 by norm_num, zpow_add_one₀ two_ne_zero]
    ring
  unfold lowEnd
  rw [htwo]
  exact mul_le_mul hcoef hpow (by positivity) (by linarith)

theorem mant_ofBits_eq_zero {neg : Bool} {N : ℕ} (h : (ofBits neg N).mant = 0) : N = 0 := by
  rw [ofBits_mant] at h
  split at h <;> omega

theorem readsBack_zero (b : Binary) (hm : b.mant = 0) : b.ReadsBack 0 := by
  have hpow : (0 : ℚ) < 2 ^ (b.exp - 2) := by positivity
  unfold ReadsBack lowEnd highEnd
  rw [if_pos (by rw [hm]), hm]
  simp only [Nat.cast_zero, mul_zero, zero_sub, zero_add]
  constructor
  · split <;> nlinarith
  · positivity

end Binary

/-- The largest double is below `10^400`: a decimal with more places before the point is
infinite. -/
theorem highEnd_max_lt_ten_pow (neg : Bool) :
    (Binary.ofBits neg 0x7FEFFFFFFFFFFFFF).highEnd < 10 ^ (400 : ℤ) := by
  rw [Binary.highEnd_max, show (971 : ℤ) = ((971 : ℕ) : ℤ) from rfl,
    show (400 : ℤ) = ((400 : ℕ) : ℤ) from rfl, zpow_natCast, zpow_natCast]
  calc ((2 : ℚ) ^ 53 - 1 / 2) * 2 ^ 971 < 2 ^ 53 * 2 ^ 971 := by
        have : (0 : ℚ) < 2 ^ 971 := by positivity
        generalize (2 : ℚ) ^ 971 = p at this ⊢
        linarith
    _ = 2 ^ 1024 := by rw [← pow_add]
    _ ≤ 2 ^ 1200 := pow_le_pow_right₀ (by norm_num) (by norm_num)
    _ = 8 ^ 400 := by rw [show (1200 : ℕ) = 3 * 400 by norm_num, pow_mul]; norm_num
    _ < 10 ^ 400 := by gcongr; norm_num

/-- Half the least positive double is above `10^-401`: a decimal whose first digit is further
after the point is below it. -/
theorem ten_pow_lt_two_pow : (10 : ℚ) ^ (-401 : ℤ) < 2 ^ (-1075 : ℤ) := by
  rw [zpow_neg, zpow_neg, inv_lt_inv₀ (by positivity) (by positivity),
    show ((1075 : ℤ)) = ((1075 : ℕ) : ℤ) from rfl, zpow_natCast,
    show ((401 : ℤ)) = ((401 : ℕ) : ℤ) from rfl, zpow_natCast]
  calc (2 : ℚ) ^ 1075 ≤ 2 ^ 1203 := pow_le_pow_right₀ (by norm_num) (by norm_num)
    _ = 8 ^ 401 := by rw [show (1203 : ℕ) = 3 * 401 by norm_num, pow_mul]; norm_num
    _ < 10 ^ 401 := by gcongr; norm_num

/-- A decimal in the rounding interval of a finite double reads as that double, with its sign:
a zero decimal as the zero of that sign, one so small or so large that its power of ten is not
needed as well. -/
theorem nearestDouble_eq (x : Float) (b : Binary) (hx : classify x.toBits = .finite b)
    (digits : ℕ) (exp : ℤ) (hr : b.ReadsBack (digits * 10 ^ exp)) :
    nearestDouble b.neg digits exp = x := by
  have hb := classify_finite _ _ hx
  have hMlt := lowBits_lt_of_classify_finite _ _ hx
  have hsign := classify_sign x.toBits
  generalize x.toBits.toNat % 2 ^ 63 = M at hb hMlt hsign
  generalize hs : decide (x.toBits.toNat / 2 ^ 63 % 2 = 1) = s at hb
  have hneg : b.neg = s := by rw [hb, Binary.ofBits_neg]
  generalize hrdef : (digits : ℚ) * 10 ^ exp = r at hr
  rw [hb] at hr
  have hmax := Binary.lt_highEnd_max s M hMlt r hr
  have hzero : (Binary.ofBits s M).mant = 0 → M = 0 := Binary.mant_ofBits_eq_zero
  have hnear : ∀ num den : ℕ, 0 < num → 0 < den → (num : ℚ) / den = r → nearestBits num den = M := by
    intro num den hnum hden hq
    obtain ⟨-, hN⟩ := readsBack_nearestBits s num den hnum hden (hq ▸ hmax)
    exact Binary.eq_of_readsBack s _ _ r (hq ▸ hN) hr
  have hdc : (Nat.toDigits 10 digits).length = digitCount digits := rfl
  have hbits : (if digits = 0 then 0
      else if exp + ((Nat.toDigits 10 digits).length : ℤ) > 400 then 0x7FF0000000000000
      else if exp + ((Nat.toDigits 10 digits).length : ℤ) < -400 then 0
      else if exp ≥ 0 then nearestBits (digits * Nat.pow 10 exp.toNat) 1
      else nearestBits digits (Nat.pow 10 (-exp).toNat)) = M := by
    rw [hdc]
    split_ifs with hd hhi hlo hexp
    · -- a zero decimal: only a zero mantissa holds zero
      refine (hzero ?_).symm
      by_contra hm
      have hpos := Binary.lowEnd_pos _ (Nat.pos_of_ne_zero hm)
      have hle := Binary.lowEnd_le_of_readsBack _ _ hr
      subst hd
      rw [← hrdef] at hle
      simp only [Nat.cast_zero, zero_mul] at hle
      linarith
    · -- at least `10^400`: beyond every double
      exfalso
      obtain ⟨hlow, -⟩ := digitCount_bounds digits (Nat.pos_of_ne_zero hd)
      have h1 : (10 : ℚ) ^ ((digitCount digits - 1 : ℕ) : ℤ) ≤ digits := by
        rw [zpow_natCast]
        exact_mod_cast hlow
      have h2 : (10 : ℚ) ^ (400 : ℤ) ≤ 10 ^ (((digitCount digits - 1 : ℕ) : ℤ) + exp) :=
        zpow_le_zpow_right₀ (by norm_num) (by omega)
      have h3 : (10 : ℚ) ^ (400 : ℤ) ≤ r := by
        rw [← hrdef]
        calc (10 : ℚ) ^ (400 : ℤ) ≤ 10 ^ (((digitCount digits - 1 : ℕ) : ℤ) + exp) := h2
          _ = 10 ^ ((digitCount digits - 1 : ℕ) : ℤ) * 10 ^ exp := zpow_add₀ (by norm_num) _ _
          _ ≤ digits * 10 ^ exp := by gcongr
      linarith [highEnd_max_lt_ten_pow s]
    · -- below `10^-400`: below half the least double, so the double is a zero
      refine (hzero ?_).symm
      by_contra hm
      obtain ⟨-, hhigh⟩ := digitCount_bounds digits (Nat.pos_of_ne_zero hd)
      have h1 : (digits : ℚ) < 10 ^ (digitCount digits : ℤ) := by
        rw [zpow_natCast]
        exact_mod_cast hhigh
      have h2 : (10 : ℚ) ^ ((digitCount digits : ℤ) + exp) ≤ 10 ^ (-401 : ℤ) :=
        zpow_le_zpow_right₀ (by norm_num) (by omega)
      have h3 : r < (10 : ℚ) ^ (-401 : ℤ) := by
        rw [← hrdef]
        calc (digits : ℚ) * 10 ^ exp < 10 ^ (digitCount digits : ℤ) * 10 ^ exp := by gcongr
          _ = 10 ^ ((digitCount digits : ℤ) + exp) := (zpow_add₀ (by norm_num) _ _).symm
          _ ≤ 10 ^ (-401 : ℤ) := h2
      have h4 := Binary.two_pow_le_lowEnd s M (Nat.pos_of_ne_zero hm)
      have h5 := Binary.lowEnd_le_of_readsBack _ _ hr
      linarith [ten_pow_lt_two_pow]
    · -- a whole decimal
      apply hnear _ _ (Nat.mul_pos (Nat.pos_of_ne_zero hd) (by rw [Nat.pow_eq]; positivity))
        Nat.one_pos
      rw [← hrdef, Nat.pow_eq]
      push_cast
      rw [div_one, ← zpow_natCast, Int.toNat_of_nonneg hexp]
    · -- a decimal with places after the point
      apply hnear _ _ (Nat.pos_of_ne_zero hd) (by rw [Nat.pow_eq]; positivity)
      rw [← hrdef, Nat.pow_eq]
      push_cast
      rw [← zpow_natCast, Int.toNat_of_nonneg (by omega), zpow_neg, div_eq_mul_inv, inv_inv]
  unfold nearestDouble
  dsimp only
  rw [hbits, hneg]
  conv_rhs => rw [← ofBits_toBits x]
  congr 1
  apply UInt64.toNat_inj.1
  rw [UInt64.toNat_ofNat', hsign, Nat.pow_eq]
  have hlt := x.toBits.toNat_lt
  cases s <;> simp only [Bool.false_eq_true, if_false, if_true] at hs ⊢ <;>
    simp only [decide_eq_false_iff_not, decide_eq_true_eq] at hs <;> simp only [hs, if_true, if_false] <;> omega

end BlockPlan.Decimal
