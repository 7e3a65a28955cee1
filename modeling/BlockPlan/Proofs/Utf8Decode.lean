import BlockPlan.Proofs.PlanBytes

/-!
# Decoding UTF-8 undoes encoding

The bytes that `Text.utf8` gives for text of code points below `0x110000` decode back into that
text (`decodeUtf8_of_utf8`). Each code point is written as a lead byte and the continuation
bytes of its width; `decodeStep` reads them back in one step (`decodeStep_utf8Point`), the second
byte of a three- or four-byte form falling in the range that excludes overlong forms,
surrogates and code points above `0x10FFFF`.
-/

namespace BlockPlan

/-! ## One step for each width -/

section Steps

variable (pos : Nat) (rest : List UInt8)

theorem decodeStep_one (b : UInt8) (hb : b.toNat < 0x80) :
    decodeStep pos b rest = .ok (b.toNat, 1, rest) := by
  unfold decodeStep
  rw [if_pos (by rw [UInt8.lt_iff_toNat_lt]; exact hb)]

theorem decodeStep_two (b c1 : UInt8) (hb : 0xC2 ≤ b.toNat) (hb' : b.toNat < 0xE0)
    (hc1 : 0x80 ≤ c1.toNat) (hc1' : c1.toNat ≤ 0xBF) :
    decodeStep pos b (c1 :: rest) =
      .ok ((b.toNat - 0xC0) * 0x40 + (c1.toNat - 0x80), 2, rest) := by
  obtain ⟨h1, h2, h3, h4⟩ : ¬ b < 0x80 ∧ ¬ b < 0xC2 ∧ ¬ b ≥ 0xF5 ∧ b < 0xE0 := by
    simp only [UInt8.lt_iff_toNat_lt, ge_iff_le, UInt8.le_iff_toNat_le, UInt8.reduceToNat]
    omega
  -- a lead byte of two bytes puts no bound of its own on the second byte
  have hr : secondByteRange b = (0x80, 0xBF) := by
    unfold secondByteRange
    rw [if_neg, if_neg, if_neg, if_neg] <;> intro h <;> subst h <;> simp at hb hb'
  have hlo : (0x80 : UInt8) ≤ c1 := by rw [UInt8.le_iff_toNat_le]; simpa using hc1
  have hhi : c1 ≤ 0xBF := by rw [UInt8.le_iff_toNat_le]; simpa using hc1'
  simp [decodeStep, h1, h2, h3, h4, hr, hlo, hhi]

theorem decodeStep_three (b c1 c2 : UInt8) (hb : 0xE0 ≤ b.toNat) (hb' : b.toNat < 0xF0)
    (hc1 : (secondByteRange b).1 ≤ c1 ∧ c1 ≤ (secondByteRange b).2)
    (hc2 : isContinuation c2 = true) :
    decodeStep pos b (c1 :: c2 :: rest) =
      .ok (((b.toNat - 0xE0) * 0x40 + (c1.toNat - 0x80)) * 0x40 + (c2.toNat - 0x80), 3, rest) := by
  obtain ⟨h1, h2, h3, h4, h5⟩ :
      ¬ b < 0x80 ∧ ¬ b < 0xC2 ∧ ¬ b ≥ 0xF5 ∧ ¬ b < 0xE0 ∧ b < 0xF0 := by
    simp only [UInt8.lt_iff_toNat_lt, ge_iff_le, UInt8.le_iff_toNat_le, UInt8.reduceToNat]
    omega
  rcases hsr : secondByteRange b with ⟨lo, hi⟩
  rw [hsr] at hc1
  simp [decodeStep, h1, h2, h3, h4, h5, hsr, hc1.1, hc1.2, hc2]

theorem decodeStep_four (b c1 c2 c3 : UInt8) (hb : 0xF0 ≤ b.toNat) (hb' : b.toNat < 0xF5)
    (hc1 : (secondByteRange b).1 ≤ c1 ∧ c1 ≤ (secondByteRange b).2)
    (hc2 : isContinuation c2 = true) (hc3 : isContinuation c3 = true) :
    decodeStep pos b (c1 :: c2 :: c3 :: rest) =
      .ok ((((b.toNat - 0xF0) * 0x40 + (c1.toNat - 0x80)) * 0x40 + (c2.toNat - 0x80)) * 0x40 +
        (c3.toNat - 0x80), 4, rest) := by
  obtain ⟨h1, h2, h3, h4, h5⟩ :
      ¬ b < 0x80 ∧ ¬ b < 0xC2 ∧ ¬ b ≥ 0xF5 ∧ ¬ b < 0xE0 ∧ ¬ b < 0xF0 := by
    simp only [UInt8.lt_iff_toNat_lt, ge_iff_le, UInt8.le_iff_toNat_le, UInt8.reduceToNat]
    omega
  rcases hsr : secondByteRange b with ⟨lo, hi⟩
  rw [hsr] at hc1
  simp [decodeStep, h1, h2, h3, h4, h5, hsr, hc1.1, hc1.2, hc2, hc3]

end Steps

theorem secondByteRange_mem (b c : UInt8)
    (h : (if b.toNat = 0xE0 then 0xA0 else if b.toNat = 0xF0 then 0x90 else 0x80) ≤ c.toNat ∧
      c.toNat ≤ (if b.toNat = 0xED then 0x9F else if b.toNat = 0xF4 then 0x8F else 0xBF)) :
    (secondByteRange b).1 ≤ c ∧ c ≤ (secondByteRange b).2 := by
  unfold secondByteRange
  simp only [UInt8.le_iff_toNat_le, ← UInt8.toNat_inj]
  split_ifs at h ⊢ <;> simp_all

theorem isContinuation_of_toNat (c : UInt8) (h : 0x80 ≤ c.toNat ∧ c.toNat ≤ 0xBF) :
    isContinuation c = true := by
  simp only [isContinuation, Bool.and_eq_true, decide_eq_true_eq, UInt8.le_iff_toNat_le,
    UInt8.reduceToNat]
  exact h

/-! ## Code points and text -/

/-- The bytes of a code point that is no surrogate are read back as it in one step. -/
theorem decodeStep_utf8Point (c : Nat) (hc : c < 0x110000) (hs : isSurrogate c = false) :
    ∃ b bs, utf8Point c = b :: bs ∧
      ∀ pos rest, decodeStep pos b (bs ++ rest) = .ok (c, (utf8Point c).length, rest) := by
  have byte : ∀ n, n < 0x100 → n.toUInt8.toNat = n := fun n h => UInt8.toNat_ofNat_of_lt' h
  simp only [isSurrogate, Bool.and_eq_false_iff, decide_eq_false_iff_not] at hs
  unfold utf8Point
  split_ifs with h1 h2 h3
  · refine ⟨_, _, rfl, fun pos rest => ?_⟩
    rw [List.nil_append, decodeStep_one pos rest _ (by rw [byte c (by omega)]; exact h1),
      byte c (by omega)]
    rfl
  · refine ⟨_, _, rfl, fun pos rest => ?_⟩
    rw [List.cons_append, List.nil_append, decodeStep_two pos rest _ _
      (by rw [byte _ (by omega)]; omega) (by rw [byte _ (by omega)]; omega)
      (by rw [byte _ (by omega)]; omega) (by rw [byte _ (by omega)]; omega),
      byte _ (by omega), byte _ (by omega),
      show (0xC0 + c / 0x40 - 0xC0) * 0x40 + (0x80 + c % 0x40 - 0x80) = c by omega]
    rfl
  · refine ⟨_, _, rfl, fun pos rest => ?_⟩
    have hc1 := secondByteRange_mem (0xE0 + c / 0x1000).toUInt8 (0x80 + c / 0x40 % 0x40).toUInt8
      (by rw [byte _ (by omega), byte _ (by omega)]; split_ifs <;> omega)
    rw [List.cons_append, List.cons_append, List.nil_append, decodeStep_three pos rest _ _ _
      (by rw [byte _ (by omega)]; omega) (by rw [byte _ (by omega)]; omega) hc1
      (isContinuation_of_toNat _ (by rw [byte _ (by omega)]; omega)),
      byte _ (by omega), byte _ (by omega), byte _ (by omega),
      show ((0xE0 + c / 0x1000 - 0xE0) * 0x40 + (0x80 + c / 0x40 % 0x40 - 0x80)) * 0x40 +
        (0x80 + c % 0x40 - 0x80) = c by omega]
    rfl
  · refine ⟨_, _, rfl, fun pos rest => ?_⟩
    have hc1 := secondByteRange_mem (0xF0 + c / 0x40000).toUInt8
      (0x80 + c / 0x1000 % 0x40).toUInt8
      (by rw [byte _ (by omega), byte _ (by omega)]; split_ifs <;> omega)
    rw [List.cons_append, List.cons_append, List.cons_append, List.nil_append,
      decodeStep_four pos rest _ _ _ _ (by rw [byte _ (by omega)]; omega)
      (by rw [byte _ (by omega)]; omega) hc1
      (isContinuation_of_toNat _ (by rw [byte _ (by omega)]; omega))
      (isContinuation_of_toNat _ (by rw [byte _ (by omega)]; omega)),
      byte _ (by omega), byte _ (by omega), byte _ (by omega), byte _ (by omega),
      show (((0xF0 + c / 0x40000 - 0xF0) * 0x40 + (0x80 + c / 0x1000 % 0x40 - 0x80)) * 0x40 +
        (0x80 + c / 0x40 % 0x40 - 0x80)) * 0x40 + (0x80 + c % 0x40 - 0x80) = c by omega]
    rfl

/-- Decoding the bytes of code points that are no surrogates, given a step for every byte,
gives the code points after those decoded before. -/
theorem decodeFrom_flatMap (cs : List Nat)
    (hcs : ∀ c ∈ cs, c < 0x110000 ∧ isSurrogate c = false) :
    ∀ fuel pos acc, (cs.flatMap utf8Point).length ≤ fuel →
      decodeFrom fuel pos (cs.flatMap utf8Point) acc = .ok (acc.reverse ++ cs) := by
  induction cs with
  | nil =>
    intro fuel pos acc _
    cases fuel <;> simp [decodeFrom]
  | cons c cs ih =>
    intro fuel pos acc hfuel
    obtain ⟨hc, hs⟩ := hcs c List.mem_cons_self
    obtain ⟨b, bs, hbs, hstep⟩ := decodeStep_utf8Point c hc hs
    rw [List.flatMap_cons, hbs, List.cons_append] at hfuel ⊢
    obtain ⟨f, rfl⟩ : ∃ f, fuel = f + 1 := ⟨fuel - 1, by simp at hfuel; omega⟩
    rw [decodeFrom, hstep pos]
    simp only [bind, Except.bind]
    rw [ih (fun x hx => hcs x (List.mem_cons_of_mem c hx)) f _ _
      (by simp only [List.length_cons, List.length_append] at hfuel; omega)]
    simp

/-- The UTF-8 bytes of text of valid code points decode back into the text. -/
theorem decodeUtf8_of_utf8 {t : Text} (ht : t.Valid) {bytes : List UInt8}
    (h : t.utf8 = .ok bytes) : decodeUtf8 bytes = .ok t := by
  unfold Text.utf8 at h
  cases hrun : t.firstSurrogateRun with
  | some run =>
    rw [hrun] at h
    cases h
  | none =>
    rw [hrun] at h
    cases h
    have hs := (Text.firstSurrogateRun_eq_none_iff t).1 hrun
    unfold decodeUtf8
    rw [decodeFrom_flatMap t.points (fun c hc => ⟨ht c hc, hs c hc⟩) _ 0 [] le_rfl]
    rfl

end BlockPlan
