import BlockPlan.Proofs.NumberText
import BlockPlan.Json.Read
import BlockPlan.Value.Canonical

/-!
# Spaced JSON text is read back whole

The sort key of a set element is the spaced ASCII text of its JSON form. Two elements with one
key have one JSON form: `write_spaced_injective`, for JSON forms whose strings and keys have no
surrogate pair left to join and no code point above `0x10FFFF` (`AllJoined`), as every JSON form
of a value with valid text has.

The proof reads the text back piece by piece. A number or literal is the longest run of
characters before a stop, and its kind and value are read off that run (`atomChars_injective`).
A quoted string is a run of escaped code units up to the closing quote; each unit reads back as
itself (`readUnit_escapePoint`), and the code units join back into the code points
(`fuseList_codeUnits`). Arrays and objects are read item by item, each item ending at a comma or
at the closing bracket (`render_unique`, `items_unique`, `fields_unique`).
-/

namespace BlockPlan.Json

/-! ## Reading escapes back -/

/-- The value of four hexadecimal digits. -/
def hexQuad (a b c d : Nat) : Option Nat := do
  let a ← JsonRead.hexValue a
  let b ← JsonRead.hexValue b
  let c ← JsonRead.hexValue c
  let d ← JsonRead.hexValue d
  pure (((a * 16 + b) * 16 + c) * 16 + d)

/-- Reads four hexadecimal digits. -/
def readHex4 : List Nat → Option (Nat × List Nat)
  | a :: b :: c :: d :: r => (hexQuad a b c d).map (·, r)
  | _ => none

/-- Reads what follows a backslash: `u` and four hexadecimal digits, or one letter. -/
def readEscape : List Nat → Option (Nat × List Nat)
  | [] => none
  | e :: r => if e = 0x75 then readHex4 r else (JsonRead.simpleEscape e).map (·, r)

/-- Reads one code unit of a quoted string: an escape, or a code point as it stands. -/
def readUnit : List Nat → Option (Nat × List Nat)
  | [] => none
  | c :: r => if c = 0x5C then readEscape r else some (c, r)

theorem hexValue_digitChar (k : Nat) (hk : k < 16) : JsonRead.hexValue (Nat.digitChar k).toNat = some k := by
  interval_cases k <;> decide

theorem toDigits_sixteen (u : Nat) (hu : 16 ≤ u) :
    Nat.toDigits 16 u = Nat.toDigits 16 (u / 16) ++ [Nat.digitChar (u % 16)] := by
  rw [← Nat.toDigits_of_lt_base (Nat.mod_lt u (by norm_num)),
    Nat.toDigits_append_toDigits (by norm_num) (by omega) (Nat.mod_lt u (by norm_num)),
    Nat.div_add_mod]

/-- Four hexadecimal digits, the first ones zeros as needed. -/
theorem hexDigits_four (u : Nat) (hu : u < 0x10000) :
    (hexDigits 4 u).toList = [Nat.digitChar (u / 4096), Nat.digitChar (u / 256 % 16),
      Nat.digitChar (u / 16 % 16), Nat.digitChar (u % 16)] := by
  unfold hexDigits
  rw [String.toList_ofList]
  have hzero : Nat.digitChar 0 = '0' := rfl
  by_cases h1 : u < 16
  · rw [Nat.toDigits_of_lt_base h1]
    simp [show u / 4096 = 0 by omega, show u / 256 = 0 by omega, show u / 16 = 0 by omega,
      Nat.mod_eq_of_lt h1, hzero]
  rw [toDigits_sixteen u (by omega)]
  by_cases h2 : u < 256
  · rw [Nat.toDigits_of_lt_base (show u / 16 < 16 by omega)]
    simp [show u / 4096 = 0 by omega, show u / 256 = 0 by omega, hzero,
      Nat.mod_eq_of_lt (show u / 16 < 16 by omega)]
  rw [toDigits_sixteen (u / 16) (by omega), Nat.div_div_eq_div_mul]
  by_cases h3 : u < 4096
  · rw [Nat.toDigits_of_lt_base (show u / (16 * 16) < 16 by omega)]
    simp [show u / 4096 = 0 by omega, hzero, Nat.mod_eq_of_lt (show u / 256 < 16 by omega)]
  rw [toDigits_sixteen (u / (16 * 16)) (by omega), Nat.div_div_eq_div_mul,
    Nat.toDigits_of_lt_base (show u / (16 * 16 * 16) < 16 by omega)]
  simp

theorem unicodeEscape_eq (u : Nat) (hu : u < 0x10000) :
    unicodeEscape u = [0x5C, 0x75, (Nat.digitChar (u / 4096)).toNat,
      (Nat.digitChar (u / 256 % 16)).toNat, (Nat.digitChar (u / 16 % 16)).toNat,
      (Nat.digitChar (u % 16)).toNat] := by
  simp [unicodeEscape, Text.ofString, hexDigits_four u hu]

theorem readUnit_unicodeEscape (u : Nat) (hu : u < 0x10000) (rest : List Nat) :
    readUnit (unicodeEscape u ++ rest) = some (u, rest) := by
  rw [unicodeEscape_eq u hu]
  simp only [List.cons_append, List.nil_append, readUnit, if_pos, readEscape, readHex4, hexQuad]
  rw [hexValue_digitChar _ (by omega), hexValue_digitChar _ (Nat.mod_lt _ (by norm_num)),
    hexValue_digitChar _ (Nat.mod_lt _ (by norm_num)),
    hexValue_digitChar _ (Nat.mod_lt _ (by norm_num))]
  simp only [Option.bind_eq_bind, Option.bind_some, Option.pure_def, Option.map_some,
    Option.some.injEq, Prod.mk.injEq, and_true]
  omega

/-- What a code point is written as inside a string: a backslash and an ASCII letter, the `\u`
escape of the code point, the `\u` escapes of two code units (text outside ASCII escaped), or the
code point itself, which is then no quote and no backslash. -/
theorem escapePoint_shape (ascii : Bool) (c : Nat) :
    (∃ e < 0x80, escapePoint ascii c = [0x5C, e]) ∨
    (c < 0x10000 ∧ escapePoint ascii c = unicodeEscape c) ∨
    (ascii = true ∧ ∃ n m, escapePoint ascii c = unicodeEscape n ++ unicodeEscape m) ∨
    (c ≠ 0x22 ∧ c ≠ 0x5C ∧ escapePoint ascii c = [c]) := by
  unfold escapePoint
  by_cases h1 : c = 0x22
  · exact .inl ⟨_, by decide, if_pos h1⟩
  rw [if_neg h1]
  by_cases h2 : c = 0x5C
  · exact .inl ⟨_, by decide, if_pos h2⟩
  rw [if_neg h2]
  by_cases h3 : c = 0x0A
  · exact .inl ⟨_, by decide, if_pos h3⟩
  rw [if_neg h3]
  by_cases h4 : c = 0x0D
  · exact .inl ⟨_, by decide, if_pos h4⟩
  rw [if_neg h4]
  by_cases h5 : c = 0x09
  · exact .inl ⟨_, by decide, if_pos h5⟩
  rw [if_neg h5]
  by_cases h6 : c = 0x08
  · exact .inl ⟨_, by decide, if_pos h6⟩
  rw [if_neg h6]
  by_cases h7 : c = 0x0C
  · exact .inl ⟨_, by decide, if_pos h7⟩
  rw [if_neg h7]
  by_cases h8 : c < 0x20
  · exact .inr (.inl ⟨by omega, if_pos h8⟩)
  rw [if_neg h8]
  by_cases h9 : (!ascii || decide (c ≤ 0x7E)) = true
  · exact .inr (.inr (.inr ⟨h1, h2, if_pos h9⟩))
  rw [if_neg h9]
  by_cases h10 : c < 0x10000
  · exact .inr (.inl ⟨h10, if_pos h10⟩)
  rw [if_neg h10]
  have hascii : ascii = true := by
    cases ascii
    · simp at h9
    · rfl
  exact .inr (.inr (.inl ⟨hascii, _, _, rfl⟩))

/-- Every code unit written in a quoted string reads back as itself. -/
theorem readUnit_escapePoint (u : Nat) (hu : u < 0x10000) (rest : List Nat) :
    readUnit (escapePoint true u ++ rest) = some (u, rest) := by
  unfold escapePoint
  by_cases hq : u = 0x22
  · subst hq; rfl
  rw [if_neg hq]
  by_cases hb : u = 0x5C
  · subst hb; rfl
  rw [if_neg hb]
  by_cases hn : u = 0x0A
  · subst hn; rfl
  rw [if_neg hn]
  by_cases hr : u = 0x0D
  · subst hr; rfl
  rw [if_neg hr]
  by_cases ht : u = 0x09
  · subst ht; rfl
  rw [if_neg ht]
  by_cases hbs : u = 0x08
  · subst hbs; rfl
  rw [if_neg hbs]
  by_cases hf : u = 0x0C
  · subst hf; rfl
  rw [if_neg hf]
  by_cases hc : u < 0x20
  · rw [if_pos hc]
    exact readUnit_unicodeEscape u hu rest
  rw [if_neg hc]
  by_cases hp : (!true || decide (u ≤ 0x7E)) = true
  · rw [if_pos hp]
    simp [readUnit, hb]
  rw [if_neg hp, if_pos hu]
  exact readUnit_unicodeEscape u hu rest

theorem escapePoint_append_ne_quote (u : Nat) (hu : u < 0x10000) (rest r : List Nat) :
    escapePoint true u ++ rest ≠ 0x22 :: r := by
  intro h
  have hread := readUnit_escapePoint u hu rest
  rw [h] at hread
  simp only [readUnit, show (0x22 : Nat) ≠ 0x5C by decide, if_false, Option.some.injEq,
    Prod.mk.injEq] at hread
  obtain ⟨rfl, rfl⟩ := hread
  simp [escapePoint] at h

/-- Written code units followed by the closing quote are read back as they were. -/
theorem escapedUnits_unique (us₁ us₂ r₁ r₂ : List Nat) (h₁ : ∀ u ∈ us₁, u < 0x10000)
    (h₂ : ∀ u ∈ us₂, u < 0x10000)
    (h : us₁.flatMap (escapePoint true) ++ 0x22 :: r₁ = us₂.flatMap (escapePoint true) ++ 0x22 :: r₂) :
    us₁ = us₂ ∧ r₁ = r₂ := by
  induction us₁ generalizing us₂ with
  | nil =>
    cases us₂ with
    | nil => simpa using h
    | cons u us₂ =>
      rw [List.flatMap_cons, List.append_assoc] at h
      exact absurd h.symm (escapePoint_append_ne_quote u (h₂ u List.mem_cons_self) _ _)
  | cons u us₁ ih =>
    cases us₂ with
    | nil =>
      rw [List.flatMap_cons, List.append_assoc] at h
      exact absurd h (escapePoint_append_ne_quote u (h₁ u List.mem_cons_self) _ _)
    | cons u' us₂ =>
      rw [List.flatMap_cons, List.flatMap_cons, List.append_assoc, List.append_assoc] at h
      have hread := congrArg readUnit h
      rw [readUnit_escapePoint u (h₁ u List.mem_cons_self),
        readUnit_escapePoint u' (h₂ u' List.mem_cons_self)] at hread
      obtain ⟨rfl, hrest⟩ := Prod.mk.inj (Option.some.inj hread)
      obtain ⟨rfl, rfl⟩ := ih us₂ (fun v hv => h₁ v (List.mem_cons_of_mem u hv))
        (fun v hv => h₂ v (List.mem_cons_of_mem u hv)) hrest
      exact ⟨rfl, rfl⟩

/-! ## Code points and code units -/

/-- The UTF-16 code units of a code point: itself below `0x10000`, else a high and a low
surrogate. -/
def codeUnits (c : Nat) : List Nat :=
  if c < 0x10000 then [c] else [0xD800 + (c - 0x10000) / 0x400, 0xDC00 + (c - 0x10000) % 0x400]

theorem codeUnits_lt (c : Nat) (hc : c < 0x110000) : ∀ u ∈ codeUnits c, u < 0x10000 := by
  unfold codeUnits
  split <;> simp <;> omega

theorem escapePoint_of_wide (u : Nat) (h₁ : 0x7F ≤ u) (h₂ : u < 0x10000) :
    escapePoint true u = unicodeEscape u := by
  unfold escapePoint
  simp only [show u ≠ 0x22 by omega, show u ≠ 0x5C by omega, show u ≠ 0x0A by omega,
    show u ≠ 0x0D by omega, show u ≠ 0x09 by omega, show u ≠ 0x08 by omega,
    show u ≠ 0x0C by omega, show ¬u < 0x20 by omega, show ¬u ≤ 0x7E by omega, h₂, if_false,
    if_true, Bool.not_true, Bool.false_or, decide_false, Bool.false_eq_true]

/-- A code point is written as the escapes of its code units. -/
theorem escapePoint_codeUnits (c : Nat) (hc : c < 0x110000) :
    escapePoint true c = (codeUnits c).flatMap (escapePoint true) := by
  unfold codeUnits
  split
  · simp
  · rename_i hw
    rw [List.flatMap_cons, List.flatMap_cons, List.flatMap_nil, List.append_nil,
      escapePoint_of_wide (0xD800 + (c - 0x10000) / 0x400) (by omega) (by omega),
      escapePoint_of_wide (0xDC00 + (c - 0x10000) % 0x400) (by omega) (by omega)]
    unfold escapePoint
    simp only [show c ≠ 0x22 by omega, show c ≠ 0x5C by omega, show c ≠ 0x0A by omega,
      show c ≠ 0x0D by omega, show c ≠ 0x09 by omega, show c ≠ 0x08 by omega,
      show c ≠ 0x0C by omega, show ¬c < 0x20 by omega, show ¬c ≤ 0x7E by omega, hw, if_false,
      Bool.not_true, Bool.false_or, decide_false, Bool.false_eq_true]

/-- No high surrogate is directly followed by a low one. -/
def Unpaired (l : List Nat) : Prop :=
  l.IsChain fun a b => ¬(isHighSurrogate a = true ∧ isLowSurrogate b = true)

theorem not_surrogate_of_wide (c : Nat) (hc : 0x10000 ≤ c) :
    isHighSurrogate c = false ∧ isLowSurrogate c = false := by
  simp only [isHighSurrogate, isLowSurrogate, Bool.and_eq_false_iff, decide_eq_false_iff_not]
  omega

/-- Joining starts with the first code point or with a joined pair. -/
theorem fuseList_head (b : Nat) (rest : List Nat) :
    ∀ h ∈ (Text.fuseList (b :: rest)).head?, h = b ∨ 0x10000 ≤ h := by
  cases rest with
  | nil => simp [Text.fuseList]
  | cons c rest =>
    unfold Text.fuseList
    split
    · intro h hh
      simp only [List.head?_cons, Option.mem_def, Option.some.injEq] at hh
      subst hh
      right
      omega
    · simp

/-- Joining leaves no pair to join. -/
theorem fuseList_unpaired (l : List Nat) : Unpaired (Text.fuseList l) := by
  fun_induction Text.fuseList l with
  | case1 => exact List.isChain_nil
  | case2 c => exact List.isChain_singleton c
  | case3 a b rest hpair ih =>
    refine List.IsChain.cons ih fun y _ hy => ?_
    rw [(not_surrogate_of_wide _ (by omega)).1] at hy
    cases hy.1
  | case4 a b rest hpair ih =>
    refine List.IsChain.cons ih fun y hy hlow => ?_
    rcases fuseList_head b rest y hy with rfl | hwide
    · simp only [Bool.and_eq_true] at hpair
      exact hpair hlow
    · rw [(not_surrogate_of_wide y hwide).2] at hlow
      cases hlow.2

theorem fuseList_lt (l : List Nat) (hl : ∀ c ∈ l, c < 0x110000) :
    ∀ c ∈ Text.fuseList l, c < 0x110000 := by
  fun_induction Text.fuseList l with
  | case1 => simp
  | case2 c => simpa using hl
  | case3 a b rest hpair ih =>
    simp only [isHighSurrogate, isLowSurrogate, Bool.and_eq_true, decide_eq_true_eq] at hpair
    intro c hc
    rcases List.mem_cons.1 hc with hc | hc
    · rw [hc]
      omega
    · exact ih (fun c hc => hl c (List.mem_cons_of_mem a (List.mem_cons_of_mem b hc))) c hc
  | case4 a b rest hpair ih =>
    intro c hc
    rcases List.mem_cons.1 hc with rfl | hc
    · exact hl c List.mem_cons_self
    · exact ih (fun c hc => hl c (List.mem_cons_of_mem a hc)) c hc

theorem fuseList_cons_of_unpaired (a : Nat) (l : List Nat)
    (h : ∀ b ∈ l.head?, ¬(isHighSurrogate a = true ∧ isLowSurrogate b = true)) :
    Text.fuseList (a :: l) = a :: Text.fuseList l := by
  cases l with
  | nil => rfl
  | cons b l =>
    rw [Text.fuseList, if_neg (by simpa only [Bool.and_eq_true] using h b rfl)]

theorem codeUnits_head (c : Nat) (hc : c < 0x110000) :
    ∀ u ∈ (codeUnits c).head?, u = c ∨ isLowSurrogate u = false := by
  unfold codeUnits
  split
  · simp
  · intro u hu
    simp only [List.head?_cons, Option.mem_def, Option.some.injEq] at hu
    subst hu
    right
    simp only [isLowSurrogate, Bool.and_eq_false_iff, decide_eq_false_iff_not]
    omega

/-- Joining the code units of text with no pair to join and with every code point below
`0x110000` gives the text back. -/
theorem fuseList_codeUnits (t : List Nat) (hv : ∀ c ∈ t, c < 0x110000) (hu : Unpaired t) :
    Text.fuseList (t.flatMap codeUnits) = t := by
  induction t with
  | nil => rfl
  | cons c rest ih =>
    have hrest := ih (fun d hd => hv d (List.mem_cons_of_mem c hd)) hu.tail
    have hc := hv c List.mem_cons_self
    rw [List.flatMap_cons]
    by_cases hwide : c < 0x10000
    · rw [show codeUnits c = [c] from if_pos hwide, List.singleton_append,
        fuseList_cons_of_unpaired c _ ?_, hrest]
      -- the code unit after `c` starts the next code point
      intro b hb hpair
      cases rest with
      | nil => cases hb
      | cons d rest =>
        rw [List.flatMap_cons, List.head?_append, Option.mem_def, Option.or_eq_some_iff] at hb
        rcases hb with hb | ⟨hnone, -⟩
        · rcases codeUnits_head d (hv d (by simp)) b hb with rfl | hlow
          · exact (List.isChain_cons_cons.1 hu).1 hpair
          · rw [hlow] at hpair
            cases hpair.2
        · unfold codeUnits at hnone
          split at hnone <;> cases hnone
    · rw [show codeUnits c = [0xD800 + (c - 0x10000) / 0x400, 0xDC00 + (c - 0x10000) % 0x400]
        from if_neg hwide, List.cons_append, List.cons_append, List.nil_append]
      have hpair : (isHighSurrogate (0xD800 + (c - 0x10000) / 0x400) &&
          isLowSurrogate (0xDC00 + (c - 0x10000) % 0x400)) = true := by
        simp only [isHighSurrogate, isLowSurrogate, Bool.and_eq_true, decide_eq_true_eq]
        omega
      rw [Text.fuseList, if_pos hpair, hrest, List.cons.injEq]
      exact ⟨by omega, rfl⟩

/-! ## Quoted strings -/

/-- Text as a JSON string holds it: every code point below `0x110000`, and no high surrogate
directly before a low one. -/
structure Joined (t : Text) : Prop where
  lt : ∀ c ∈ t.points, c < 0x110000
  unpaired : Unpaired t.points

theorem joined_fuse (t : Text) (ht : ∀ c ∈ t.points, c < 0x110000) : Joined t.fuse :=
  ⟨fuseList_lt t.points ht, fuseList_unpaired t.points⟩

theorem flatMap_escapePoint (t : Text) (ht : Joined t) :
    t.points.flatMap (escapePoint true) = (t.points.flatMap codeUnits).flatMap (escapePoint true) := by
  rw [List.flatMap_assoc]
  exact List.flatMap_congr fun c hc => escapePoint_codeUnits c (ht.lt c hc)

theorem codeUnits_flatMap_lt (t : Text) (ht : Joined t) :
    ∀ u ∈ t.points.flatMap codeUnits, u < 0x10000 := by
  intro u hu
  obtain ⟨c, hc, hu⟩ := List.mem_flatMap.1 hu
  exact codeUnits_lt c (ht.lt c hc) u hu

/-- A quoted string in ASCII is read back whole, with what follows it: two such strings that
start two equal texts are equal. -/
theorem quote_unique (t₁ t₂ : Text) (h₁ : Joined t₁) (h₂ : Joined t₂) (r₁ r₂ : List Nat)
    (h : (quote true t₁).points ++ r₁ = (quote true t₂).points ++ r₂) : t₁ = t₂ ∧ r₁ = r₂ := by
  simp only [quote, List.cons_append, List.append_assoc, List.cons.injEq, true_and] at h
  rw [flatMap_escapePoint t₁ h₁, flatMap_escapePoint t₂ h₂] at h
  obtain ⟨hunits, hr⟩ := escapedUnits_unique _ _ _ _ (codeUnits_flatMap_lt t₁ h₁)
    (codeUnits_flatMap_lt t₂ h₂) h
  refine ⟨?_, hr⟩
  have hpoints := congrArg Text.fuseList hunits
  rw [fuseList_codeUnits _ h₁.lt h₁.unpaired, fuseList_codeUnits _ h₂.lt h₂.unpaired] at hpoints
  cases t₁
  cases t₂
  exact congrArg Text.mk hpoints

/-! ## Numbers and literals -/

open Decimal in
/-- The characters of a whole number: its sign and its digits. -/
def intChars (n : Int) : List Char := signChars (decide (n < 0)) ++ Nat.toDigits 10 n.natAbs

theorem intText_points (n : Int) : (intText n).points = (intChars n).map Char.toNat := by
  unfold intText intChars
  split
  · rename_i hn
    simp [Text.ofString, Decimal.natText, Decimal.signChars, hn]
  · rename_i hn
    simp [Text.ofString, Decimal.natText, Decimal.signChars, hn, show n.natAbs = n.toNat by omega]

open Decimal in
/-- The characters of a number or a literal; none for strings, arrays and objects. -/
def atomChars : Json → Option (List Char)
  | .null => some "null".toList
  | .bool b => some (if b then "true" else "false").toList
  | .int n => some (intChars n)
  | .float x => some (Layout.json.render x).toList
  | _ => none

theorem render_atom (st : Style) (level : Nat) (j : Json) (cs : List Char)
    (h : atomChars j = some cs) : (render st level j).points = cs.map Char.toNat := by
  cases j with
  | null =>
    cases h
    rfl
  | bool b =>
    cases h
    cases b <;> rfl
  | int n =>
    cases h
    rw [render, intText_points]
  | float x =>
    cases h
    rfl
  | str s => cases h
  | arr items => cases h
  | obj fields => cases h

open Decimal in
/-- A text that is a sign, then a digit. -/
def LeadDigit (cs : List Char) : Prop :=
  ∃ neg c rest, c.isDigit = true ∧ splitSign cs = (neg, c :: rest)

open Decimal in
theorem not_leadDigit {cs : List Char} (s : Bool) (c : Char) (rest : List Char)
    (hs : splitSign cs = (s, c :: rest)) (hc : c.isDigit = false) : ¬ LeadDigit cs := by
  rintro ⟨neg, c', rest', hc', hs'⟩
  rw [hs] at hs'
  simp only [Prod.mk.injEq, List.cons.injEq] at hs'
  rw [hs'.2.1, hc'] at hc
  cases hc

open Decimal in
theorem splitSign_intChars (n : Int) :
    splitSign (intChars n) = (decide (n < 0), Nat.toDigits 10 n.natAbs) := by
  obtain ⟨c, rest, hds⟩ := List.exists_cons_of_ne_nil (Nat.toDigits_ne_nil (n := n.natAbs) (b := 10))
  have hc : c.isDigit = true :=
    Nat.isDigit_of_mem_toDigits (by norm_num) (by norm_num) (hds ▸ List.mem_cons_self)
  rw [intChars, hds]
  exact splitSign_sign _ c rest (digit_ne_marks c hc).2.2

theorem leadDigit_intChars (n : Int) : LeadDigit (intChars n) := by
  obtain ⟨c, rest, hds⟩ := List.exists_cons_of_ne_nil (Nat.toDigits_ne_nil (n := n.natAbs) (b := 10))
  have hc : c.isDigit = true :=
    Nat.isDigit_of_mem_toDigits (by norm_num) (by norm_num) (hds ▸ List.mem_cons_self)
  exact ⟨decide (n < 0), c, rest, hc, by rw [splitSign_intChars, hds]⟩

theorem intChars_chars (n : Int) : ∀ ch ∈ intChars n, ch.isDigit = true ∨ ch = '-' := by
  intro ch hch
  rcases List.mem_append.1 hch with h | h
  · right
    unfold Decimal.signChars at h
    split at h <;> simp_all
  · exact .inl (Nat.isDigit_of_mem_toDigits (by norm_num) (by norm_num) h)

theorem intChars_injective {m n : Int} (h : intChars m = intChars n) : m = n := by
  have hs := congrArg Decimal.splitSign h
  rw [splitSign_intChars, splitSign_intChars, Prod.mk.injEq] at hs
  obtain ⟨hneg, hdigits⟩ := hs
  have habs : m.natAbs = n.natAbs := by
    rw [← Nat.ofDigitChars_ten_toDigits (n := m.natAbs), hdigits, Nat.ofDigitChars_ten_toDigits]
  simp only [decide_eq_decide] at hneg
  omega

/-- The three literals. -/
def literalChars : List (List Char) := [['n', 'u', 'l', 'l'], ['t', 'r', 'u', 'e'], ['f', 'a', 'l', 's', 'e']]

/-- What kind of atom a text is: a literal (`0`), a whole number (`1`) or a double (`2`). -/
def atomKind (cs : List Char) : Nat :=
  if cs ∈ literalChars then 0 else if cs.all (fun ch => ch.isDigit || ch == '-') then 1 else 2

/-- The kind of atom a value is. -/
def atomSort : Json → Nat
  | .int _ => 1
  | .float _ => 2
  | _ => 0

theorem not_leadDigit_literal (cs : List Char) (h : cs ∈ literalChars) : ¬ LeadDigit cs := by
  simp only [literalChars, List.mem_cons, List.not_mem_nil, or_false] at h
  rcases h with rfl | rfl | rfl
  · exact not_leadDigit false 'n' _ rfl rfl
  · exact not_leadDigit false 't' _ rfl rfl
  · exact not_leadDigit false 'f' _ rfl rfl

open Decimal in
/-- The text of a double is a sign and a digit, or one of the texts of not a number and the
infinities. -/
theorem floatChars_cases (x : Float) :
    LeadDigit (Layout.json.render x).toList ∨
      (Layout.json.render x).toList ∈ [['N', 'a', 'N'], ['I', 'n', 'f', 'i', 'n', 'i', 't', 'y'],
        ['-', 'I', 'n', 'f', 'i', 'n', 'i', 't', 'y']] := by
  cases hx : classify x.toBits with
  | nan =>
    right
    rw [render_nan _ _ hx, show Layout.json.nan.toList = ['N', 'a', 'N'] by decide]
    simp
  | infinite neg =>
    right
    rw [render_infinite _ _ _ hx]
    cases neg
    · rw [show ((if false = true then "-" else "") ++ Layout.json.infinity).toList =
        ['I', 'n', 'f', 'i', 'n', 'i', 't', 'y'] by decide]
      simp
    · rw [show ((if true = true then "-" else "") ++ Layout.json.infinity).toList =
        ['-', 'I', 'n', 'f', 'i', 'n', 'i', 't', 'y'] by decide]
      simp
  | finite b =>
    left
    obtain ⟨c, rest, hc, hs⟩ := (finiteText_render _ x b hx).splitSign_eq
    exact ⟨b.neg, c, rest, hc, hs⟩

/-- The kind of an atom is read off its text. -/
theorem atomKind_atomChars (j : Json) (cs : List Char) (h : atomChars j = some cs) :
    atomKind cs = atomSort j := by
  cases j with
  | null =>
    cases h
    rfl
  | bool b =>
    cases h
    cases b <;> rfl
  | int n =>
    cases h
    have hlit : intChars n ∉ literalChars := fun hl =>
      not_leadDigit_literal _ hl (leadDigit_intChars n)
    have hall : (intChars n).all (fun ch => ch.isDigit || ch == '-') = true := by
      rw [List.all_eq_true]
      intro ch hch
      rcases intChars_chars n ch hch with hd | rfl
      · simp [hd]
      · rfl
    simp only [atomKind, hlit, if_false, hall, if_true, atomSort]
  | float x =>
    cases h
    have hlit : (Decimal.Layout.json.render x).toList ∉ literalChars := by
      intro hl
      rcases floatChars_cases x with hd | hs
      · exact not_leadDigit_literal _ hl hd
      · simp only [literalChars, List.mem_cons, List.not_mem_nil, or_false] at hl hs
        rcases hs with hs | hs | hs <;> rw [hs] at hl <;> simp at hl
    have hall : (Decimal.Layout.json.render x).toList.all (fun ch => ch.isDigit || ch == '-') =
        false := by
      obtain ⟨ch, hch, hd, hm⟩ := Decimal.render_json_not_whole x
      rw [List.all_eq_false]
      exact ⟨ch, hch, by simp [hd, hm]⟩
    simp only [atomKind, hlit, if_false, hall, atomSort, Bool.false_eq_true]
  | str s => cases h
  | arr items => cases h
  | obj fields => cases h

/-- Two numbers or literals with one text are one. -/
theorem atomChars_injective {j₁ j₂ : Json} {cs : List Char} (h₁ : atomChars j₁ = some cs)
    (h₂ : atomChars j₂ = some cs) : j₁ = j₂ := by
  have hsort := (atomKind_atomChars j₁ cs h₁).symm.trans (atomKind_atomChars j₂ cs h₂)
  cases j₁ <;> cases j₂ <;> simp only [atomSort, atomChars, Option.some.injEq, reduceCtorEq] at hsort h₁ h₂
  case null.null => rfl
  case null.bool b => exact absurd (h₁.trans h₂.symm) (by cases b <;> decide)
  case bool.null b => exact absurd (h₁.trans h₂.symm) (by cases b <;> decide)
  case bool.bool b b' =>
    have h := h₁.trans h₂.symm
    cases b <;> cases b' <;> simp at h ⊢
  case int.int m n => rw [intChars_injective (h₁.trans h₂.symm)]
  case int.float => exact absurd hsort (by decide)
  case float.int => exact absurd hsort (by decide)
  case float.float x y => rw [Decimal.render_json_injective (String.ext (h₁.trans h₂.symm))]

/-! ## Written values -/

theorem render_spaced_arr (level : Nat) (items : List Json) :
    (render Style.spaced level (.arr items)).points =
      0x5B :: ((renderItems Style.spaced level items).points ++ [0x5D]) := by
  cases items with
  | nil => rfl
  | cons j rest => rfl

theorem render_spaced_obj (level : Nat) (fields : List (Text × Json)) :
    (render Style.spaced level (.obj fields)).points =
      0x7B :: ((renderFields Style.spaced level fields).points ++ [0x7D]) := by
  cases fields with
  | nil => rfl
  | cons f rest => rfl

theorem renderItems_spaced_cons (level : Nat) (j k : Json) (rest : List Json) :
    (renderItems Style.spaced level (j :: k :: rest)).points =
      (render Style.spaced level j).points ++
        0x2C :: 0x20 :: (renderItems Style.spaced level (k :: rest)).points := by
  show ((render Style.spaced level j).points ++ [0x2C, 0x20]) ++
    (renderItems Style.spaced level (k :: rest)).points = _
  simp

theorem renderFields_spaced_one (level : Nat) (key : Text) (j : Json) :
    (renderFields Style.spaced level [(key, j)]).points =
      (quote true key).points ++ 0x3A :: 0x20 :: (render Style.spaced level j).points := by
  show ((quote true key).points ++ [0x3A, 0x20]) ++ (render Style.spaced level j).points = _
  simp

theorem renderFields_spaced_cons (level : Nat) (key : Text) (j : Json) (f : Text × Json)
    (rest : List (Text × Json)) :
    (renderFields Style.spaced level ((key, j) :: f :: rest)).points =
      (quote true key).points ++ 0x3A :: 0x20 :: ((render Style.spaced level j).points ++
        0x2C :: 0x20 :: (renderFields Style.spaced level (f :: rest)).points) := by
  show ((((quote true key).points ++ [0x3A, 0x20]) ++ (render Style.spaced level j).points) ++
    [0x2C, 0x20]) ++ (renderFields Style.spaced level (f :: rest)).points = _
  simp

/-- A comma, a closing bracket or a closing brace: what may follow a value inside an array or
an object. -/
def isStop (c : Nat) : Bool := c == 0x2C || c == 0x5D || c == 0x7D

/-- Text that is empty or starts with a stop. -/
def Stops (r : List Nat) : Prop := ∀ c ∈ r.head?, isStop c = true

/-- The kind of value a written form stands for: an atom, a string, an array or an object. -/
def jsonKind : Json → Nat
  | .str _ => 1
  | .arr _ => 2
  | .obj _ => 3
  | _ => 0

/-- The kind of value a written form starting with `c` stands for. -/
def headKind (c : Nat) : Nat :=
  if c = 0x22 then 1 else if c = 0x5B then 2 else if c = 0x7B then 3 else 0

/-- The characters of numbers and literals: digits, signs, the point, the exponent mark and
letters. -/
theorem word_range (ch : Char) (h : Decimal.NumChar ch ∨ ch.isAlpha = true) :
    (48 ≤ ch.toNat ∧ ch.toNat ≤ 57) ∨ ch.toNat = 45 ∨ ch.toNat = 43 ∨
      ch.toNat = 46 ∨ ch.toNat = 101 ∨ (65 ≤ ch.toNat ∧ ch.toNat ≤ 90) ∨
      (97 ≤ ch.toNat ∧ ch.toNat ≤ 122) := by
  rcases h with (hd | rfl | rfl | rfl | rfl) | ha
  · simp only [Char.isDigit, Bool.and_eq_true, decide_eq_true_eq] at hd
    exact .inl ⟨hd.1, hd.2⟩
  · exact .inr (.inl rfl)
  · exact .inr (.inr (.inl rfl))
  · exact .inr (.inr (.inr (.inl rfl)))
  · exact .inr (.inr (.inr (.inr (.inl rfl))))
  · simp only [Char.isAlpha, Char.isUpper, Char.isLower, Bool.or_eq_true, Bool.and_eq_true,
      decide_eq_true_eq] at ha
    exact .inr (.inr (.inr (.inr (.inr ha))))

theorem word_point (ch : Char) (h : Decimal.NumChar ch ∨ ch.isAlpha = true) :
    isStop ch.toNat = false ∧ headKind ch.toNat = 0 := by
  have hrange := word_range ch h
  simp only [isStop, headKind, Bool.or_eq_false_iff, beq_eq_false_iff_ne]
  refine ⟨⟨⟨?_, ?_⟩, ?_⟩, ?_⟩
  · omega
  · omega
  · omega
  · rw [if_neg (by omega), if_neg (by omega), if_neg (by omega)]

theorem atomChars_word (j : Json) (cs : List Char) (h : atomChars j = some cs) :
    ∀ ch ∈ cs, Decimal.NumChar ch ∨ ch.isAlpha = true := by
  cases j with
  | null =>
    cases h
    simp only [show "null".toList = ['n', 'u', 'l', 'l'] by simp, List.forall_mem_cons,
      List.not_mem_nil, IsEmpty.forall_iff, implies_true, and_true]
    decide
  | bool b =>
    cases h
    cases b
    · show ∀ ch ∈ "false".toList, Decimal.NumChar ch ∨ ch.isAlpha = true
      simp only [show "false".toList = ['f', 'a', 'l', 's', 'e'] by simp, List.forall_mem_cons,
        List.not_mem_nil, IsEmpty.forall_iff, implies_true, and_true]
      decide
    · show ∀ ch ∈ "true".toList, Decimal.NumChar ch ∨ ch.isAlpha = true
      simp only [show "true".toList = ['t', 'r', 'u', 'e'] by simp, List.forall_mem_cons,
        List.not_mem_nil, IsEmpty.forall_iff, implies_true, and_true]
      decide
  | int n =>
    cases h
    intro ch hch
    rcases intChars_chars n ch hch with hd | rfl
    · exact .inl (.inl hd)
    · exact .inl (.inr (.inl rfl))
  | float x =>
    cases h
    exact Decimal.render_json_chars x
  | str s => cases h
  | arr items => cases h
  | obj fields => cases h

theorem atomChars_ne_nil (j : Json) (cs : List Char) (h : atomChars j = some cs) : cs ≠ [] := by
  cases j with
  | null =>
    cases h
    simp
  | bool b =>
    cases h
    cases b <;> simp
  | int n =>
    cases h
    simp [intChars, Nat.toDigits_ne_nil]
  | float x =>
    cases h
    obtain ⟨ch, hch, -⟩ := Decimal.render_json_not_whole x
    exact List.ne_nil_of_mem hch
  | str s => cases h
  | arr items => cases h
  | obj fields => cases h

theorem atomChars_of_kind (j : Json) (h : jsonKind j = 0) : ∃ cs, atomChars j = some cs := by
  cases j with
  | str s => cases h
  | arr items => cases h
  | obj fields => cases h
  | null => exact ⟨_, rfl⟩
  | bool b => exact ⟨_, rfl⟩
  | int n => exact ⟨_, rfl⟩
  | float x => exact ⟨_, rfl⟩

theorem render_head_atom (level : Nat) (j : Json) (cs : List Char) (hcs : atomChars j = some cs) :
    ∃ c rest, (render Style.spaced level j).points = c :: rest ∧ isStop c = false ∧
      headKind c = 0 := by
  obtain ⟨ch, rest, rfl⟩ := List.exists_cons_of_ne_nil (atomChars_ne_nil _ _ hcs)
  have hword := word_point ch (atomChars_word _ _ hcs ch List.mem_cons_self)
  exact ⟨ch.toNat, _, by rw [render_atom _ _ _ _ hcs, List.map_cons], hword.1, hword.2⟩

theorem jsonKind_of_atomChars (j : Json) (cs : List Char) (h : atomChars j = some cs) :
    jsonKind j = 0 := by
  cases j with
  | str s => cases h
  | arr items => cases h
  | obj fields => cases h
  | null | bool _ | int _ | float _ => rfl

theorem render_head (level : Nat) (j : Json) :
    ∃ c rest, (render Style.spaced level j).points = c :: rest ∧ isStop c = false ∧
      headKind c = jsonKind j := by
  cases j with
  | str s => exact ⟨0x22, _, rfl, rfl, rfl⟩
  | arr items => exact ⟨0x5B, _, render_spaced_arr level items, rfl, rfl⟩
  | obj fields => exact ⟨0x7B, _, render_spaced_obj level fields, rfl, rfl⟩
  | null => exact render_head_atom level _ _ rfl
  | bool b => exact render_head_atom level _ _ rfl
  | int n => exact render_head_atom level _ _ rfl
  | float x => exact render_head_atom level _ _ rfl

theorem jsonKind_eq (level : Nat) (j₁ j₂ : Json) (r₁ r₂ : List Nat)
    (h : (render Style.spaced level j₁).points ++ r₁ = (render Style.spaced level j₂).points ++ r₂) :
    jsonKind j₁ = jsonKind j₂ := by
  obtain ⟨c₁, rest₁, h₁, -, hk₁⟩ := render_head level j₁
  obtain ⟨c₂, rest₂, h₂, -, hk₂⟩ := render_head level j₂
  rw [h₁, h₂, List.cons_append, List.cons_append, List.cons.injEq] at h
  rw [← hk₁, ← hk₂, h.1]

/-- Text with no stop in it, followed by a stop or by nothing, is found again in what it starts. -/
theorem word_prefix_unique (a₁ a₂ r₁ r₂ : List Nat) (ha₁ : ∀ c ∈ a₁, isStop c = false)
    (ha₂ : ∀ c ∈ a₂, isStop c = false) (hr₁ : Stops r₁) (hr₂ : Stops r₂)
    (h : a₁ ++ r₁ = a₂ ++ r₂) : a₁ = a₂ ∧ r₁ = r₂ := by
  have hword : ∀ a r, (∀ c ∈ a, isStop c = false) → Stops r →
      (a ++ r).takeWhile (fun c => !isStop c) = a := by
    intro a r ha hr
    rw [List.takeWhile_append_of_pos (by simpa using ha)]
    cases r with
    | nil => simp
    | cons c r => simp [hr c rfl]
  have ha : a₁ = a₂ := by
    rw [← hword a₁ r₁ ha₁ hr₁, h, hword a₂ r₂ ha₂ hr₂]
  subst ha
  exact ⟨rfl, List.append_cancel_left h⟩

/-- A number or literal is read back whole, with what follows it when that starts with a stop. -/
theorem atom_unique (level : Nat) (j₁ j₂ : Json) (cs₁ : List Char) (r₁ r₂ : List Nat)
    (hcs₁ : atomChars j₁ = some cs₁) (hr₁ : Stops r₁) (hr₂ : Stops r₂)
    (h : (render Style.spaced level j₁).points ++ r₁ = (render Style.spaced level j₂).points ++ r₂) :
    j₁ = j₂ ∧ r₁ = r₂ := by
  have hkind := jsonKind_eq level j₁ j₂ r₁ r₂ h
  obtain ⟨cs₂, hcs₂⟩ := atomChars_of_kind j₂ (hkind ▸ jsonKind_of_atomChars j₁ cs₁ hcs₁)
  have hstop : ∀ cs j, atomChars j = some cs → ∀ c ∈ cs.map Char.toNat, isStop c = false := by
    intro cs j hcs c hc
    obtain ⟨ch, hch, rfl⟩ := List.mem_map.1 hc
    exact (word_point ch (atomChars_word j cs hcs ch hch)).1
  rw [render_atom _ _ _ _ hcs₁, render_atom _ _ _ _ hcs₂] at h
  obtain ⟨hchars, hr⟩ := word_prefix_unique _ _ _ _ (hstop _ _ hcs₁) (hstop _ _ hcs₂) hr₁ hr₂ h
  have hcs : cs₁ = cs₂ := List.map_injective_iff.2 (fun _ _ h => Char.toNat_inj.1 h) hchars
  subst hcs
  exact ⟨atomChars_injective hcs₁ hcs₂, hr⟩

/-- Every string and every key of a JSON value is `Joined`. -/
inductive AllJoined : Json → Prop
  | null : AllJoined .null
  | bool (b : Bool) : AllJoined (.bool b)
  | int (n : Int) : AllJoined (.int n)
  | float (x : Float) : AllJoined (.float x)
  | str {s : Text} : Joined s → AllJoined (.str s)
  | arr {items : List Json} : (∀ j ∈ items, AllJoined j) → AllJoined (.arr items)
  | obj {fields : List (Text × Json)} : (∀ f ∈ fields, Joined f.1) →
      (∀ f ∈ fields, AllJoined f.2) → AllJoined (.obj fields)

/-- What follows an item of an array up to the end of the array, then `r`. -/
def itemsAfter (level : Nat) : List Json → List Nat → List Nat
  | [], r => 0x5D :: r
  | k :: rest, r => 0x2C :: 0x20 :: ((renderItems Style.spaced level (k :: rest)).points ++ 0x5D :: r)

/-- What follows a member of an object up to the end of the object, then `r`. -/
def fieldsAfter (level : Nat) : List (Text × Json) → List Nat → List Nat
  | [], r => 0x7D :: r
  | f :: rest, r =>
    0x2C :: 0x20 :: ((renderFields Style.spaced level (f :: rest)).points ++ 0x7D :: r)

theorem stops_itemsAfter (level : Nat) (rest : List Json) (r : List Nat) :
    Stops (itemsAfter level rest r) := by
  cases rest <;> simp [Stops, itemsAfter, isStop]

theorem stops_fieldsAfter (level : Nat) (rest : List (Text × Json)) (r : List Nat) :
    Stops (fieldsAfter level rest r) := by
  cases rest <;> simp [Stops, fieldsAfter, isStop]

theorem renderItems_spaced_after (level : Nat) (j : Json) (rest : List Json) (r : List Nat) :
    (renderItems Style.spaced level (j :: rest)).points ++ 0x5D :: r =
      (render Style.spaced level j).points ++ itemsAfter level rest r := by
  cases rest with
  | nil => rfl
  | cons k rest => simp [renderItems_spaced_cons, itemsAfter]

theorem renderFields_spaced_after (level : Nat) (key : Text) (j : Json)
    (rest : List (Text × Json)) (r : List Nat) :
    (renderFields Style.spaced level ((key, j) :: rest)).points ++ 0x7D :: r =
      (quote true key).points ++ 0x3A :: 0x20 :: ((render Style.spaced level j).points ++
        fieldsAfter level rest r) := by
  cases rest with
  | nil => simp [renderFields_spaced_one, fieldsAfter]
  | cons f rest => simp [renderFields_spaced_cons, fieldsAfter]

mutual

/-- Unique readability of spaced JSON text: a written value whose strings are joined is read
back whole, with what follows it when that starts with a stop. -/
theorem render_unique (level : Nat) : (j₁ j₂ : Json) → (r₁ r₂ : List Nat) → AllJoined j₁ →
    AllJoined j₂ → Stops r₁ → Stops r₂ →
    (render Style.spaced level j₁).points ++ r₁ = (render Style.spaced level j₂).points ++ r₂ →
    j₁ = j₂ ∧ r₁ = r₂
  | .null, j₂, r₁, r₂, _, _, hr₁, hr₂, h => atom_unique level .null j₂ _ r₁ r₂ rfl hr₁ hr₂ h
  | .bool b, j₂, r₁, r₂, _, _, hr₁, hr₂, h => atom_unique level (.bool b) j₂ _ r₁ r₂ rfl hr₁ hr₂ h
  | .int n, j₂, r₁, r₂, _, _, hr₁, hr₂, h => atom_unique level (.int n) j₂ _ r₁ r₂ rfl hr₁ hr₂ h
  | .float x, j₂, r₁, r₂, _, _, hr₁, hr₂, h =>
    atom_unique level (.float x) j₂ _ r₁ r₂ rfl hr₁ hr₂ h
  | .str s₁, j₂, r₁, r₂, hj₁, hj₂, _, _, h => by
    have hkind := jsonKind_eq level _ _ _ _ h
    cases j₂ with
    | str s₂ =>
      cases hj₁ with
      | str hs₁ =>
        cases hj₂ with
        | str hs₂ =>
          obtain ⟨rfl, rfl⟩ := quote_unique s₁ s₂ hs₁ hs₂ r₁ r₂ h
          exact ⟨rfl, rfl⟩
    | null | bool _ | int _ | float _ | arr _ | obj _ => cases hkind
  | .arr is₁, j₂, r₁, r₂, hj₁, hj₂, _, _, h => by
    have hkind := jsonKind_eq level _ _ _ _ h
    cases j₂ with
    | arr is₂ =>
      cases hj₁ with
      | arr his₁ =>
        cases hj₂ with
        | arr his₂ =>
          rw [render_spaced_arr, render_spaced_arr] at h
          simp only [List.cons_append, List.append_assoc, List.cons.injEq,
            true_and] at h
          obtain ⟨rfl, rfl⟩ := items_unique level is₁ is₂ r₁ r₂ his₁ his₂ h
          exact ⟨rfl, rfl⟩
    | null | bool _ | int _ | float _ | str _ | obj _ => cases hkind
  | .obj fs₁, j₂, r₁, r₂, hj₁, hj₂, _, _, h => by
    have hkind := jsonKind_eq level _ _ _ _ h
    cases j₂ with
    | obj fs₂ =>
      cases hj₁ with
      | obj hk₁ hv₁ =>
        cases hj₂ with
        | obj hk₂ hv₂ =>
          rw [render_spaced_obj, render_spaced_obj] at h
          simp only [List.cons_append, List.append_assoc, List.cons.injEq,
            true_and] at h
          obtain ⟨rfl, rfl⟩ := fields_unique level fs₁ fs₂ r₁ r₂ hk₁ hv₁ hk₂ hv₂ h
          exact ⟨rfl, rfl⟩
    | null | bool _ | int _ | float _ | str _ | arr _ => cases hkind

/-- The items of an array are read back up to its closing bracket. -/
theorem items_unique (level : Nat) : (is₁ is₂ : List Json) → (r₁ r₂ : List Nat) →
    (∀ j ∈ is₁, AllJoined j) → (∀ j ∈ is₂, AllJoined j) →
    (renderItems Style.spaced level is₁).points ++ 0x5D :: r₁ =
      (renderItems Style.spaced level is₂).points ++ 0x5D :: r₂ →
    is₁ = is₂ ∧ r₁ = r₂
  | [], [], r₁, r₂, _, _, h => ⟨rfl, List.cons.inj h |>.2⟩
  | [], j :: rest, r₁, r₂, _, _, h => by
    obtain ⟨c, cs, hc, hstop, -⟩ := render_head level j
    rw [renderItems_spaced_after, hc, List.cons_append] at h
    have hclose := (List.cons.inj h).1
    rw [← hclose] at hstop
    cases hstop
  | j :: rest, [], r₁, r₂, _, _, h => by
    obtain ⟨c, cs, hc, hstop, -⟩ := render_head level j
    rw [renderItems_spaced_after, hc, List.cons_append] at h
    have hclose := (List.cons.inj h).1
    rw [hclose] at hstop
    cases hstop
  | j₁ :: rest₁, j₂ :: rest₂, r₁, r₂, h₁, h₂, h => by
    rw [renderItems_spaced_after, renderItems_spaced_after] at h
    obtain ⟨rfl, hafter⟩ := render_unique level j₁ j₂ _ _ (h₁ j₁ List.mem_cons_self)
      (h₂ j₂ List.mem_cons_self) (stops_itemsAfter _ _ _) (stops_itemsAfter _ _ _) h
    cases rest₁ with
    | nil =>
      cases rest₂ with
      | nil => exact ⟨rfl, (List.cons.inj hafter).2⟩
      | cons k rest₂ => cases (List.cons.inj hafter).1
    | cons k₁ rest₁ =>
      cases rest₂ with
      | nil => cases (List.cons.inj hafter).1
      | cons k₂ rest₂ =>
        simp only [itemsAfter, List.cons.injEq, true_and] at hafter
        obtain ⟨hrest, rfl⟩ := items_unique level (k₁ :: rest₁) (k₂ :: rest₂) r₁ r₂
          (fun j hj => h₁ j (List.mem_cons_of_mem _ hj))
          (fun j hj => h₂ j (List.mem_cons_of_mem _ hj)) hafter
        rw [hrest]
        exact ⟨rfl, rfl⟩

/-- The members of an object are read back up to its closing brace. -/
theorem fields_unique (level : Nat) : (fs₁ fs₂ : List (Text × Json)) → (r₁ r₂ : List Nat) →
    (∀ f ∈ fs₁, Joined f.1) → (∀ f ∈ fs₁, AllJoined f.2) → (∀ f ∈ fs₂, Joined f.1) →
    (∀ f ∈ fs₂, AllJoined f.2) →
    (renderFields Style.spaced level fs₁).points ++ 0x7D :: r₁ =
      (renderFields Style.spaced level fs₂).points ++ 0x7D :: r₂ →
    fs₁ = fs₂ ∧ r₁ = r₂
  | [], [], r₁, r₂, _, _, _, _, h => ⟨rfl, List.cons.inj h |>.2⟩
  | [], (key, j) :: rest, r₁, r₂, _, _, _, _, h => by
    rw [renderFields_spaced_after] at h
    cases (List.cons.inj h).1
  | (key, j) :: rest, [], r₁, r₂, _, _, _, _, h => by
    rw [renderFields_spaced_after] at h
    cases (List.cons.inj h).1
  | (key₁, j₁) :: rest₁, (key₂, j₂) :: rest₂, r₁, r₂, hk₁, hv₁, hk₂, hv₂, h => by
    rw [renderFields_spaced_after, renderFields_spaced_after] at h
    obtain ⟨rfl, hvalue⟩ := quote_unique key₁ key₂ (hk₁ _ List.mem_cons_self)
      (hk₂ _ List.mem_cons_self) _ _ h
    simp only [List.cons.injEq, true_and] at hvalue
    obtain ⟨rfl, hafter⟩ := render_unique level j₁ j₂ _ _ (hv₁ _ List.mem_cons_self)
      (hv₂ _ List.mem_cons_self) (stops_fieldsAfter _ _ _) (stops_fieldsAfter _ _ _) hvalue
    cases rest₁ with
    | nil =>
      cases rest₂ with
      | nil => exact ⟨rfl, (List.cons.inj hafter).2⟩
      | cons f rest₂ => cases (List.cons.inj hafter).1
    | cons f₁ rest₁ =>
      cases rest₂ with
      | nil => cases (List.cons.inj hafter).1
      | cons f₂ rest₂ =>
        simp only [fieldsAfter, List.cons.injEq, true_and] at hafter
        obtain ⟨hrest, rfl⟩ := fields_unique level (f₁ :: rest₁) (f₂ :: rest₂) r₁ r₂
          (fun f hf => hk₁ f (List.mem_cons_of_mem _ hf))
          (fun f hf => hv₁ f (List.mem_cons_of_mem _ hf))
          (fun f hf => hk₂ f (List.mem_cons_of_mem _ hf))
          (fun f hf => hv₂ f (List.mem_cons_of_mem _ hf)) hafter
        rw [hrest]
        exact ⟨rfl, rfl⟩

end

theorem write_spaced_injective (j₁ j₂ : Json) (h₁ : AllJoined j₁) (h₂ : AllJoined j₂)
    (h : write Style.spaced j₁ = write Style.spaced j₂) : j₁ = j₂ := by
  have hpoints : (render Style.spaced 0 j₁).points ++ [] = (render Style.spaced 0 j₂).points ++ [] := by
    rw [List.append_nil, List.append_nil]
    exact congrArg Text.points h
  exact (render_unique 0 j₁ j₂ [] [] h₁ h₂ nofun nofun hpoints).1

end BlockPlan.Json
