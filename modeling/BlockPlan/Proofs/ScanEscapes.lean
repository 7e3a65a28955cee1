import BlockPlan.Proofs.ScanText

/-!
# Reading strings written in ASCII

Written in ASCII, a string holds every code point outside printable ASCII as `\u` escapes of its
UTF-16 code units (`Json.codeUnits`). The reader turns each escape back into its code unit, and
a high surrogate whose escape is directly followed by the escape of a low one into the code
point of the pair; so a run of escaped code units followed by the closing quote is read as the
units joined (`scanString_units`). The code units of text with valid code points, joined, are
the text with its own pairs joined (`fuseList_flatMap_codeUnits`), so a string written in ASCII
is read as `Text.fuse` of its text (`scanString_quote_ascii`).
-/

namespace BlockPlan.JsonRead

open Json

/-! ## Code units joined -/

/-- Joining the code units of code points gives what joining the code points gives: a code point
above `0xFFFF` is split into a pair that joins back, and a pair split across two code points
joins as before. -/
theorem fuseList_flatMap_codeUnits (l : List Nat) (hl : ∀ c ∈ l, c < 0x110000) :
    Text.fuseList (l.flatMap codeUnits) = Text.fuseList l := by
  have hwide : ∀ c, 0x10000 ≤ c → c < 0x110000 →
      (isHighSurrogate (0xD800 + (c - 0x10000) / 0x400) &&
        isLowSurrogate (0xDC00 + (c - 0x10000) % 0x400)) = true ∧
      0x10000 + (0xD800 + (c - 0x10000) / 0x400 - 0xD800) * 0x400 +
        (0xDC00 + (c - 0x10000) % 0x400 - 0xDC00) = c := by
    intro c h₁ h₂
    simp only [isHighSurrogate, isLowSurrogate, Bool.and_eq_true, decide_eq_true_eq]
    omega
  fun_induction Text.fuseList l with
  | case1 => rfl
  | case2 c =>
    rw [List.flatMap_cons, List.flatMap_nil, List.append_nil]
    by_cases hc : c < 0x10000
    · rw [show codeUnits c = [c] from if_pos hc]
      rfl
    · obtain ⟨hpair, hval⟩ := hwide c (by omega) (hl c List.mem_cons_self)
      rw [show codeUnits c = _ from if_neg hc, Text.fuseList, if_pos hpair, hval]
      rfl
  | case3 a b rest hpair ih =>
    have ha : codeUnits a = [a] := if_pos (by simp [isHighSurrogate] at hpair; omega)
    have hb : codeUnits b = [b] := if_pos (by simp [isLowSurrogate] at hpair; omega)
    rw [List.flatMap_cons, List.flatMap_cons, ha, hb, List.singleton_append,
      List.singleton_append, Text.fuseList, if_pos hpair,
      ih fun c hc => hl c (List.mem_cons_of_mem a (List.mem_cons_of_mem b hc))]
  | case4 a b rest hpair ih =>
    have ih' := ih fun c hc => hl c (List.mem_cons_of_mem a hc)
    rw [List.flatMap_cons]
    by_cases ha : a < 0x10000
    · -- the code unit after `a` is `b` itself or a high surrogate, which no pair closes
      rw [show codeUnits a = [a] from if_pos ha, List.singleton_append,
        fuseList_cons_of_unpaired a _ ?_, ih']
      intro u hu hpair'
      rw [List.flatMap_cons, List.head?_append, Option.mem_def, Option.or_eq_some_iff] at hu
      rcases hu with hu | ⟨hnone, -⟩
      · rcases codeUnits_head b (hl b (by simp)) u hu with rfl | hlow
        · exact hpair (by simpa only [Bool.and_eq_true] using hpair')
        · rw [hlow] at hpair'
          cases hpair'.2
      · unfold codeUnits at hnone
        split at hnone <;> cases hnone
    · obtain ⟨hjoin, hval⟩ := hwide a (by omega) (hl a List.mem_cons_self)
      rw [show codeUnits a = _ from if_neg ha, List.cons_append, List.cons_append,
        List.nil_append, Text.fuseList, if_pos hjoin, hval, ih']

/-! ## Escapes of code units -/

section Units

variable {s : Array Nat}

/-- An escape that starts with `\u` is the numbered escape of its code unit. -/
theorem escapePoint_numbered (b : Nat) (hb : b < 0x10000) (r more : List Nat)
    (h : escapePoint true b ++ more = 0x5C :: 0x75 :: r) :
    escapePoint true b = unicodeEscape b := by
  unfold escapePoint at h ⊢
  by_cases h1 : b = 0x22
  · simp [h1] at h
  rw [if_neg h1] at h ⊢
  by_cases h2 : b = 0x5C
  · simp [h2] at h
  rw [if_neg h2] at h ⊢
  by_cases h3 : b = 0x0A
  · simp [h3] at h
  rw [if_neg h3] at h ⊢
  by_cases h4 : b = 0x0D
  · simp [h4] at h
  rw [if_neg h4] at h ⊢
  by_cases h5 : b = 0x09
  · simp [h5] at h
  rw [if_neg h5] at h ⊢
  by_cases h6 : b = 0x08
  · simp [h6] at h
  rw [if_neg h6] at h ⊢
  by_cases h7 : b = 0x0C
  · simp [h7] at h
  rw [if_neg h7] at h ⊢
  by_cases h8 : b < 0x20
  · rw [if_pos h8]
  rw [if_neg h8] at h ⊢
  by_cases h9 : (!true || decide (b ≤ 0x7E)) = true
  · rw [if_pos h9] at h
    simp only [List.cons_append, List.nil_append, List.cons.injEq] at h
    exact absurd h.1 h2
  rw [if_neg h9, if_pos hb]

/-- What may follow a code unit that opens no pair with it: the closing quote, or the escape of a
code unit that is no low surrogate. -/
def OpensNoPair (more : List Nat) : Prop :=
  (∃ rest, more = 0x22 :: rest) ∨
  ∃ b rest, b < 0x10000 ∧ isLowSurrogate b = false ∧ more = escapePoint true b ++ rest

theorem OpensNoPair.ne_nil {more : List Nat} (h : OpensNoPair more) : more ≠ [] := by
  rcases h with ⟨rest, rfl⟩ | ⟨b, rest, hb, -, rfl⟩
  · exact List.cons_ne_nil _ _
  · -- a written code unit is read back, so it is not empty
    intro hnil
    have hread := readUnit_escapePoint b hb rest
    rw [hnil] at hread
    simp [readUnit] at hread

/-- A high surrogate written by number and followed by no escaped low surrogate is read alone. -/
theorem scanString_high (start u : Nat) (hu : u < 0x10000) (acc more : List Nat)
    (hmore : OpensNoPair more) (i : Nat) (h : s.toList.drop i = unicodeEscape u ++ more) :
    scanString s start i acc = scanString s start (i + 6) (u :: acc) := by
  rw [scanString_numbered start u hu acc more hmore.ne_nil i h]
  have hafter : s.toList.drop (i + 6) = more := by
    have := drop_add_of_drop h
    rwa [unicodeEscape_eq u hu] at this
  split
  · rename_i hcond
    simp only [Bool.and_eq_true, beq_iff_eq] at hcond
    obtain ⟨⟨⟨-, -⟩, h6⟩, h7⟩ := hcond
    rcases hmore with ⟨rest, rfl⟩ | ⟨b, rest, hb, hlow, rfl⟩
    · rw [at?_of_drop hafter] at h6
      cases h6
    · obtain ⟨r, hr⟩ : ∃ r, escapePoint true b ++ rest = 0x5C :: 0x75 :: r := by
        cases hdrop : escapePoint true b ++ rest with
        | nil => exact absurd hdrop (OpensNoPair.ne_nil (.inr ⟨b, rest, hb, hlow, rfl⟩))
        | cons c r =>
          rw [hdrop] at hafter
          rw [at?_of_drop hafter] at h6
          cases h6
          cases r with
          | nil => rw [at?_of_drop_nil (drop_succ_of_drop hafter)] at h7; cases h7
          | cons d r =>
            rw [at?_of_drop (drop_succ_of_drop hafter)] at h7
            cases h7
            exact ⟨r, rfl⟩
      rw [escapePoint_numbered b hb r rest hr, unicodeEscape_eq b hb] at hafter
      simp only [List.cons_append, List.nil_append] at hafter
      have hdigits := drop_succ_of_drop (drop_succ_of_drop hafter)
      rw [show i + 6 + 1 + 1 = i + 8 by omega] at hdigits
      have hhex := hex4_of_drop b hb rest (i + 8) hdigits
      simp only [hhex, hlow, Bool.false_eq_true, if_false]
  · rfl

/-- A high surrogate written by number and directly followed by a low one written by number is
read as the code point of the pair. -/
theorem scanString_pair (start u l : Nat) (hu : isHighSurrogate u = true)
    (hl : isLowSurrogate l = true) (acc more : List Nat) (hmore : more ≠ []) (i : Nat)
    (h : s.toList.drop i = unicodeEscape u ++ unicodeEscape l ++ more) :
    scanString s start i acc =
      scanString s start (i + 12) ((0x10000 + (u - 0xD800) * 0x400 + (l - 0xDC00)) :: acc) := by
  have hu' : u < 0x10000 := by simp [isHighSurrogate] at hu; omega
  have hl' : l < 0x10000 := by simp [isLowSurrogate] at hl; omega
  rw [List.append_assoc] at h
  rw [scanString_numbered start u hu' acc _ (by simp [unicodeEscape_eq l hl']) i h]
  have hafter := drop_add_of_drop h
  rw [unicodeEscape_eq u hu', unicodeEscape_eq l hl'] at hafter
  simp only [List.length_cons, List.length_nil, List.cons_append, List.nil_append] at hafter
  have hsize : i + 12 < s.size := by
    have hlen := congrArg List.length hafter
    simp only [List.length_drop, Array.length_toList, List.length_cons] at hlen
    have := List.length_pos_iff.2 hmore
    omega
  have h7 := drop_succ_of_drop hafter
  have hhex := hex4_of_drop l hl' more (i + 8) (drop_succ_of_drop h7)
  rw [if_pos (by simp [hu, hsize, at?_of_drop hafter, at?_of_drop h7]), hhex]
  exact if_pos hl

/-- A code unit that opens no pair with what follows it is read as itself. -/
theorem scanString_unit (start u : Nat) (hu : u < 0x10000) (acc more : List Nat)
    (hmore : more ≠ []) (hpair : isHighSurrogate u = true → OpensNoPair more) (i : Nat)
    (h : s.toList.drop i = escapePoint true u ++ more) :
    scanString s start i acc =
      scanString s start (i + (escapePoint true u).length) (u :: acc) := by
  by_cases hwide : 0x7F ≤ u
  · rw [escapePoint_of_wide u hwide hu] at h ⊢
    rw [show (unicodeEscape u).length = 6 by simp [unicodeEscape_eq u hu]]
    cases hhigh : isHighSurrogate u with
    | true => exact scanString_high start u hu acc more (hpair hhigh) i h
    | false => exact scanString_unicodeEscape start u hu hhigh acc more hmore i h
  · -- below `0x7F` the escapes are those of text written as it stands
    have hsame : escapePoint true u = escapePoint false u := by
      unfold escapePoint
      simp [show u ≤ 0x7E by omega]
    rw [hsame] at h ⊢
    exact scanString_escapePoint start u acc more hmore i h

/-- Escaped code units, then the closing quote, are read as the code units joined. -/
theorem scanString_units (start : Nat) (rest : List Nat) (us : List Nat)
    (hus : ∀ u ∈ us, u < 0x10000) :
    ∀ i acc, s.toList.drop i = us.flatMap (escapePoint true) ++ 0x22 :: rest →
      scanString s start i acc = .ok (⟨acc.reverse ++ Text.fuseList us⟩,
        i + (us.flatMap (escapePoint true)).length + 1) := by
  fun_induction Text.fuseList us with
  | case1 =>
    intro i acc h
    simpa using scanString_close start acc rest i h
  | case2 c =>
    intro i acc h
    rw [List.flatMap_cons, List.flatMap_nil, List.append_nil] at h
    have hc := hus c List.mem_cons_self
    rw [scanString_unit start c hc acc _ (List.cons_ne_nil _ _)
        (fun _ => .inl ⟨rest, rfl⟩) i h,
      scanString_close start _ rest _ (drop_add_of_drop h)]
    simp
  | case3 a b more hpair ih =>
    intro i acc h
    simp only [Bool.and_eq_true] at hpair
    have ha := hus a List.mem_cons_self
    have hb := hus b (by simp)
    have hwa : 0x7F ≤ a := by simp [isHighSurrogate] at hpair; omega
    have hwb : 0x7F ≤ b := by simp [isLowSurrogate] at hpair; omega
    rw [List.flatMap_cons, List.flatMap_cons, escapePoint_of_wide a hwa ha,
      escapePoint_of_wide b hwb hb, List.append_assoc, List.append_assoc] at h
    rw [scanString_pair start a b hpair.1 hpair.2 acc (more.flatMap (escapePoint true) ++ 0x22 :: rest)
        (by simp) i (by rw [h, List.append_assoc]),
      ih (fun u hu => hus u (List.mem_cons_of_mem a (List.mem_cons_of_mem b hu))) _ _
        (by
          have := drop_add_of_drop (drop_add_of_drop h)
          simpa [unicodeEscape_eq a ha, unicodeEscape_eq b hb] using this)]
    simp only [List.reverse_cons, List.append_assoc, List.cons_append, List.nil_append,
      List.flatMap_cons, unicodeEscape_eq a ha, unicodeEscape_eq b hb,
      escapePoint_of_wide a hwa ha, escapePoint_of_wide b hwb hb, List.length_cons]
    congr 2
    omega
  | case4 a b more hpair ih =>
    intro i acc h
    have ha := hus a List.mem_cons_self
    have hb := hus b (by simp)
    rw [List.flatMap_cons, List.append_assoc] at h
    -- `b` is no low surrogate when `a` is a high one
    have hopens : isHighSurrogate a = true → OpensNoPair ((b :: more).flatMap (escapePoint true) ++
        0x22 :: rest) := by
      intro hhigh
      refine .inr ⟨b, _, hb, ?_, by rw [List.flatMap_cons, List.append_assoc]⟩
      simpa [hhigh] using hpair
    rw [scanString_unit start a ha acc _ (by simp) hopens i h,
      ih (fun u hu => hus u (List.mem_cons_of_mem a hu)) _ _ (drop_add_of_drop h)]
    simp only [List.reverse_cons, List.append_assoc, List.singleton_append, List.flatMap_cons,
      List.length_append]
    congr 2
    omega

/-- A string written in ASCII is read as its text with its surrogate pairs joined. -/
theorem scanString_quote_ascii (t : Text) (ht : ∀ c ∈ t.points, c < 0x110000) (rest : List Nat)
    (i : Nat) (h : s.toList.drop i = (quote true t).points ++ rest) :
    scanString s i (i + 1) [] = .ok (t.fuse, i + (quote true t).points.length) := by
  have hunits : t.points.flatMap (escapePoint true) =
      (t.points.flatMap codeUnits).flatMap (escapePoint true) := by
    rw [List.flatMap_assoc]
    exact List.flatMap_congr fun c hc => escapePoint_codeUnits c (ht c hc)
  have hlt : ∀ u ∈ t.points.flatMap codeUnits, u < 0x10000 := by
    intro u hu
    obtain ⟨c, hc, hu⟩ := List.mem_flatMap.1 hu
    exact codeUnits_lt c (ht c hc) u hu
  simp only [quote, List.cons_append, List.append_assoc] at h ⊢
  rw [hunits] at h ⊢
  rw [scanString_units i rest _ hlt (i + 1) [] (drop_succ_of_drop h),
    fuseList_flatMap_codeUnits t.points ht]
  simp only [List.reverse_nil, List.nil_append, List.length_cons, List.length_append,
    List.length_nil]
  congr 2
  omega

end Units

end BlockPlan.JsonRead
