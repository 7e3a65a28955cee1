import BlockPlan.Proofs.JsonText
import BlockPlan.Text.Utf8

/-!
# Indented JSON text is compact text with blanks added

An indent changes JSON text only outside its string literals: it breaks the line after an
opening bracket and after each comma, indents the next line, and puts a blank after each colon.
`dropBlanks` deletes the blanks (space, tab, line feed, carriage return) that stand outside
string literals, following the literals by their quotes and backslash escapes (`Scan`). When the
indent is made of blanks, deleting them from indented text gives compact text
(`dropBlanks_write`):

    dropBlanks id .outside (write (Style.indented unit false) j).points = (write Style.compact j).points

The proof follows the writing of a value, constructor by constructor: numbers and literals have
no blank and no quote (`dropBlanks_plain`), a quoted string is kept whole however it is escaped
(`dropBlanks_quote`), and an indent or a line break is deleted (`dropBlanks_blanks`).

`dropBlanks` reads codes through a function, so that it applies to code points and to bytes:
UTF-8 writes a code point below `0x80` as that byte and every other one as bytes from `0x80` up,
so deleting blanks commutes with encoding (`dropBlanks_utf8`).
-/

namespace BlockPlan.Json

/-- Where a scan of JSON text stands: outside string literals, inside one, or right after a
backslash inside one. -/
inductive Scan where
  | outside
  | inside
  | escape
  deriving DecidableEq

/-- The scan after one more code. -/
def Scan.next : Scan → Nat → Scan
  | .outside, c => if c = 0x22 then .inside else .outside
  | .inside, c => if c = 0x22 then .outside else if c = 0x5C then .escape else .inside
  | .escape, _ => .inside

/-- Deletes the blanks that stand outside string literals, the scan starting at `s`. -/
def dropBlanks {α : Type} (code : α → Nat) : Scan → List α → List α
  | _, [] => []
  | s, a :: rest =>
    (if s = .outside ∧ JsonRead.isBlank (code a) = true then [] else [a]) ++
      dropBlanks code (s.next (code a)) rest

/-! ## Pieces of text -/

section Pieces

variable {α : Type} (code : α → Nat)

@[simp] theorem dropBlanks_nil (s : Scan) : dropBlanks code s [] = [] := rfl

theorem dropBlanks_cons (s : Scan) (a : α) (rest : List α) :
    dropBlanks code s (a :: rest) =
      (if s = .outside ∧ JsonRead.isBlank (code a) = true then [] else [a]) ++
        dropBlanks code (s.next (code a)) rest := rfl

theorem dropBlanks_outside_cons (a : α) (rest : List α) (hb : JsonRead.isBlank (code a) = false)
    (hq : code a ≠ 0x22) :
    dropBlanks code .outside (a :: rest) = a :: dropBlanks code .outside rest := by
  rw [dropBlanks_cons, if_neg (by simp [hb]), Scan.next, if_neg hq]
  rfl

theorem dropBlanks_blank_cons (a : α) (rest : List α) (hb : JsonRead.isBlank (code a) = true) :
    dropBlanks code .outside (a :: rest) = dropBlanks code .outside rest := by
  -- a blank is no quote, so the scan stays outside
  have hq : code a ≠ 0x22 := by
    intro h
    rw [h] at hb
    cases hb
  rw [dropBlanks_cons, if_pos ⟨rfl, hb⟩, Scan.next, if_neg hq]
  rfl

theorem dropBlanks_blanks (w rest : List α) (hw : ∀ a ∈ w, JsonRead.isBlank (code a) = true) :
    dropBlanks code .outside (w ++ rest) = dropBlanks code .outside rest := by
  induction w with
  | nil => rfl
  | cons a w ih =>
    rw [List.cons_append, dropBlanks_blank_cons code a _ (hw a List.mem_cons_self)]
    exact ih fun b hb => hw b (List.mem_cons_of_mem a hb)

theorem dropBlanks_plain (w rest : List α)
    (hw : ∀ a ∈ w, JsonRead.isBlank (code a) = false ∧ code a ≠ 0x22) :
    dropBlanks code .outside (w ++ rest) = w ++ dropBlanks code .outside rest := by
  induction w with
  | nil => rfl
  | cons a w ih =>
    obtain ⟨hb, hq⟩ := hw a List.mem_cons_self
    rw [List.cons_append, dropBlanks_outside_cons code a _ hb hq,
      ih fun b hb => hw b (List.mem_cons_of_mem a hb)]
    rfl

theorem dropBlanks_inside (w rest : List α) (hw : ∀ a ∈ w, code a ≠ 0x22 ∧ code a ≠ 0x5C) :
    dropBlanks code .inside (w ++ rest) = w ++ dropBlanks code .inside rest := by
  induction w with
  | nil => rfl
  | cons a w ih =>
    obtain ⟨hq, hbs⟩ := hw a List.mem_cons_self
    have hkeep : ¬ (Scan.inside = .outside ∧ JsonRead.isBlank (code a) = true) := by simp
    rw [List.cons_append, dropBlanks_cons, if_neg hkeep, Scan.next, if_neg hq, if_neg hbs,
      ih fun b hb => hw b (List.mem_cons_of_mem a hb)]
    rfl

end Pieces

/-! ## Quoted strings -/

theorem digitChar_not_quote (k : Nat) (hk : k < 16) :
    (Nat.digitChar k).toNat ≠ 0x22 ∧ (Nat.digitChar k).toNat ≠ 0x5C := by
  revert k
  decide

/-- An escaped code point is kept whole, and the scan is inside the string after it. -/
theorem dropBlanks_escapePoint (c : Nat) (rest : List Nat) :
    dropBlanks id .inside (escapePoint false c ++ rest) =
      escapePoint false c ++ dropBlanks id .inside rest := by
  rcases escapePoint_shape false c with ⟨e, -, he⟩ | ⟨hc, he⟩ | ⟨hascii, -⟩ | ⟨hq, hbs, he⟩
  · -- the backslash puts the scan on the escaped code, which brings it back inside
    rw [he]
    rfl
  · rw [he, unicodeEscape_eq c hc]
    have hdigits : ∀ a ∈ [(Nat.digitChar (c / 4096)).toNat, (Nat.digitChar (c / 256 % 16)).toNat,
        (Nat.digitChar (c / 16 % 16)).toNat, (Nat.digitChar (c % 16)).toNat],
        id a ≠ 0x22 ∧ id a ≠ 0x5C := by
      simp only [List.mem_cons, List.not_mem_nil, or_false, id]
      rintro a (rfl | rfl | rfl | rfl)
      · exact digitChar_not_quote _ (by omega)
      · exact digitChar_not_quote _ (Nat.mod_lt _ (by norm_num))
      · exact digitChar_not_quote _ (Nat.mod_lt _ (by norm_num))
      · exact digitChar_not_quote _ (Nat.mod_lt _ (by norm_num))
    calc dropBlanks id .inside ([0x5C, 0x75, (Nat.digitChar (c / 4096)).toNat,
          (Nat.digitChar (c / 256 % 16)).toNat, (Nat.digitChar (c / 16 % 16)).toNat,
          (Nat.digitChar (c % 16)).toNat] ++ rest)
        = 0x5C :: 0x75 :: dropBlanks id .inside ([(Nat.digitChar (c / 4096)).toNat,
          (Nat.digitChar (c / 256 % 16)).toNat, (Nat.digitChar (c / 16 % 16)).toNat,
          (Nat.digitChar (c % 16)).toNat] ++ rest) := rfl
      _ = _ := by
        rw [dropBlanks_inside id _ _ hdigits]
        rfl
  · cases hascii
  · rw [he]
    exact dropBlanks_inside id [c] rest (by simpa using And.intro hq hbs)

/-- A quoted string is kept whole, and the scan is outside after it. -/
theorem dropBlanks_quote (t : Text) (rest : List Nat) :
    dropBlanks id .outside ((quote false t).points ++ rest) =
      (quote false t).points ++ dropBlanks id .outside rest := by
  have hbody : ∀ cs : List Nat, dropBlanks id .inside (cs.flatMap (escapePoint false) ++ 0x22 :: rest) =
      cs.flatMap (escapePoint false) ++ 0x22 :: dropBlanks id .outside rest := by
    intro cs
    induction cs with
    | nil => rfl
    | cons c cs ih =>
      rw [List.flatMap_cons, List.append_assoc, dropBlanks_escapePoint, ih, List.append_assoc]
  show dropBlanks id .outside (0x22 :: (t.points.flatMap (escapePoint false) ++ [0x22]) ++ rest) =
    (0x22 :: (t.points.flatMap (escapePoint false) ++ [0x22])) ++ dropBlanks id .outside rest
  rw [List.cons_append, dropBlanks_cons, List.append_assoc, List.singleton_append]
  simp only [id, Scan.next, if_true]
  rw [hbody]
  simp [JsonRead.isBlank]

/-! ## Written values -/

section Layouts

theorem render_compact_arr (level : Nat) (items : List Json) :
    (render Style.compact level (.arr items)).points =
      0x5B :: ((renderItems Style.compact level items).points ++ [0x5D]) := by
  cases items <;> rfl

theorem render_compact_obj (level : Nat) (fields : List (Text × Json)) :
    (render Style.compact level (.obj fields)).points =
      0x7B :: ((renderFields Style.compact level fields).points ++ [0x7D]) := by
  cases fields <;> rfl

variable (u : Text)

theorem render_indented_arr (level : Nat) (j : Json) (items : List Json) :
    (render (Style.indented u false) level (.arr (j :: items))).points =
      0x5B :: ((newline u (level + 1)).points ++
        (renderItems (Style.indented u false) (level + 1) (j :: items)).points ++
        (newline u level).points ++ [0x5D]) := by
  show 0x5B :: (newline u (level + 1)).points ++ _ ++ (newline u level).points ++ [0x5D] = _
  simp

theorem render_indented_obj (level : Nat) (f : Text × Json) (fields : List (Text × Json)) :
    (render (Style.indented u false) level (.obj (f :: fields))).points =
      0x7B :: ((newline u (level + 1)).points ++
        (renderFields (Style.indented u false) (level + 1) (f :: fields)).points ++
        (newline u level).points ++ [0x7D]) := by
  show 0x7B :: (newline u (level + 1)).points ++ _ ++ (newline u level).points ++ [0x7D] = _
  simp

end Layouts

theorem renderItems_cons_cons (st : Style) (level : Nat) (j k : Json) (items : List Json) :
    (renderItems st level (j :: k :: items)).points =
      (render st level j).points ++ (separator st level).points ++
        (renderItems st level (k :: items)).points := rfl

theorem renderFields_one (st : Style) (level : Nat) (key : Text) (j : Json) :
    (renderFields st level [(key, j)]).points =
      (quote st.ascii key).points ++ st.keySep.points ++ (render st level j).points := rfl

theorem renderFields_cons_cons (st : Style) (level : Nat) (key : Text) (j : Json)
    (f : Text × Json) (fields : List (Text × Json)) :
    (renderFields st level ((key, j) :: f :: fields)).points =
      (quote st.ascii key).points ++ st.keySep.points ++ (render st level j).points ++
        (separator st level).points ++ (renderFields st level (f :: fields)).points := rfl

theorem word_plain (ch : Char) (h : Decimal.NumChar ch ∨ ch.isAlpha = true) :
    JsonRead.isBlank ch.toNat = false ∧ ch.toNat ≠ 0x22 := by
  have hrange := word_range ch h
  simp only [JsonRead.isBlank, Bool.or_eq_false_iff, decide_eq_false_iff_not]
  omega

theorem dropBlanks_atom (u : Text) (level level' : Nat) (j : Json) (cs : List Char) (hcs : atomChars j = some cs)
    (rest : List Nat) :
    dropBlanks id .outside ((render (Style.indented u false) level j).points ++ rest) =
      (render Style.compact level' j).points ++ dropBlanks id .outside rest := by
  rw [render_atom _ _ _ _ hcs, render_atom _ _ _ _ hcs]
  apply dropBlanks_plain
  intro a ha
  obtain ⟨ch, hch, rfl⟩ := List.mem_map.1 ha
  exact word_plain ch (atomChars_word j cs hcs ch hch)

/-! ## Deleting the indent -/

section Indent

variable (u : Text) (hu : ∀ c ∈ u.points, JsonRead.isBlank c = true)
include hu

theorem newline_blanks (level : Nat) : ∀ c ∈ (newline u level).points, JsonRead.isBlank c = true := by
  intro c hc
  simp only [newline, Text.replicate] at hc
  rcases List.mem_cons.1 hc with rfl | hc
  · rfl
  · obtain ⟨l, hl, hcl⟩ := List.mem_flatten.1 hc
    rw [(List.eq_of_mem_replicate hl)] at hcl
    exact hu c hcl

omit hu in
theorem separator_indented (level : Nat) :
    (separator (Style.indented u false) level).points = 0x2C :: (newline u level).points := rfl

mutual

/-- Deleting the blanks outside string literals from an indented value gives its compact text;
the levels of the two writings do not matter. -/
theorem dropBlanks_render (level level' : Nat) : (j : Json) → (rest : List Nat) →
    dropBlanks id .outside ((render (Style.indented u false) level j).points ++ rest) =
      (render Style.compact level' j).points ++ dropBlanks id .outside rest
  | .null, rest => dropBlanks_atom u level level' .null _ rfl rest
  | .bool b, rest => dropBlanks_atom u level level' (.bool b) _ rfl rest
  | .int n, rest => dropBlanks_atom u level level' (.int n) _ rfl rest
  | .float x, rest => dropBlanks_atom u level level' (.float x) _ rfl rest
  | .str s, rest => dropBlanks_quote s rest
  | .arr [], rest => dropBlanks_plain id [0x5B, 0x5D] rest (by decide)
  | .arr (j :: items), rest => by
    rw [render_indented_arr, render_compact_arr]
    simp only [List.cons_append, List.append_assoc]
    rw [dropBlanks_outside_cons id _ _ (by decide) (by decide),
      dropBlanks_blanks id _ _ (newline_blanks u hu (level + 1)),
      dropBlanks_renderItems (level + 1) level' (j :: items),
      dropBlanks_blanks id _ _ (newline_blanks u hu level)]
    rfl
  | .obj [], rest => dropBlanks_plain id [0x7B, 0x7D] rest (by decide)
  | .obj (f :: fields), rest => by
    rw [render_indented_obj, render_compact_obj]
    simp only [List.cons_append, List.append_assoc]
    rw [dropBlanks_outside_cons id _ _ (by decide) (by decide),
      dropBlanks_blanks id _ _ (newline_blanks u hu (level + 1)),
      dropBlanks_renderFields (level + 1) level' (f :: fields),
      dropBlanks_blanks id _ _ (newline_blanks u hu level)]
    rfl

/-- The items of an indented array, blanks outside strings deleted, are its compact items. -/
theorem dropBlanks_renderItems (level level' : Nat) : (items : List Json) → (rest : List Nat) →
    dropBlanks id .outside ((renderItems (Style.indented u false) level items).points ++ rest) =
      (renderItems Style.compact level' items).points ++ dropBlanks id .outside rest
  | [], rest => rfl
  | [j], rest => dropBlanks_render level level' j rest
  | j :: k :: items, rest => by
    rw [renderItems_cons_cons, renderItems_cons_cons, separator_indented]
    simp only [List.append_assoc, List.cons_append]
    rw [dropBlanks_render level level' j, dropBlanks_outside_cons id _ _ (by decide) (by decide),
      dropBlanks_blanks id _ _ (newline_blanks u hu level),
      dropBlanks_renderItems level level' (k :: items)]
    rfl

/-- The members of an indented object, blanks outside strings deleted, are its compact members:
the blank after each colon goes. -/
theorem dropBlanks_renderFields (level level' : Nat) :
    (fields : List (Text × Json)) → (rest : List Nat) →
    dropBlanks id .outside ((renderFields (Style.indented u false) level fields).points ++ rest) =
      (renderFields Style.compact level' fields).points ++ dropBlanks id .outside rest
  | [], rest => rfl
  | [(key, j)], rest => by
    rw [renderFields_one, renderFields_one]
    show dropBlanks id .outside ((quote false key).points ++ [0x3A, 0x20] ++
        (render (Style.indented u false) level j).points ++ rest) =
      (quote false key).points ++ [0x3A] ++ (render Style.compact level' j).points ++
        dropBlanks id .outside rest
    simp only [List.append_assoc, List.cons_append, List.nil_append]
    rw [dropBlanks_quote, dropBlanks_outside_cons id _ _ (by decide) (by decide),
      dropBlanks_blank_cons id 0x20 _ rfl, dropBlanks_render level level' j]
  | (key, j) :: f :: fields, rest => by
    rw [renderFields_cons_cons, renderFields_cons_cons, separator_indented]
    show dropBlanks id .outside ((quote false key).points ++ [0x3A, 0x20] ++
        (render (Style.indented u false) level j).points ++ 0x2C :: (newline u level).points ++
        (renderFields (Style.indented u false) level (f :: fields)).points ++ rest) =
      (quote false key).points ++ [0x3A] ++ (render Style.compact level' j).points ++ [0x2C] ++
        (renderFields Style.compact level' (f :: fields)).points ++ dropBlanks id .outside rest
    simp only [List.append_assoc, List.cons_append, List.nil_append]
    rw [dropBlanks_quote, dropBlanks_outside_cons id _ _ (by decide) (by decide),
      dropBlanks_blank_cons id 0x20 _ rfl, dropBlanks_render level level' j,
      dropBlanks_outside_cons id _ _ (by decide) (by decide),
      dropBlanks_blanks id _ _ (newline_blanks u hu level),
      dropBlanks_renderFields level level' (f :: fields)]

end

end Indent

/-- Deleting the blanks outside string literals from indented text gives compact text, when the
indent is made of blanks. -/
theorem dropBlanks_write (u : Text) (hu : ∀ c ∈ u.points, JsonRead.isBlank c = true) (j : Json) :
    dropBlanks id .outside (write (Style.indented u false) j).points =
      (write Style.compact j).points := by
  have h := dropBlanks_render u hu 0 0 j []
  rw [List.append_nil, dropBlanks_nil, List.append_nil] at h
  exact h

/-! ## What is deleted -/

section Deleted

variable {α : Type} (code : α → Nat)

theorem dropBlanks_sublist (s : Scan) (xs : List α) : (dropBlanks code s xs).Sublist xs := by
  induction xs generalizing s with
  | nil => exact List.Sublist.slnil
  | cons a xs ih =>
    rw [dropBlanks_cons]
    split
    · exact (ih _).cons a
    · exact (ih _).cons_cons a

theorem mem_dropBlanks (a : α) (s : Scan) (xs : List α) (ha : a ∈ xs)
    (hb : JsonRead.isBlank (code a) = false) : a ∈ dropBlanks code s xs := by
  induction xs generalizing s with
  | nil => cases ha
  | cons b xs ih =>
    rw [dropBlanks_cons]
    rcases List.mem_cons.1 ha with rfl | ha
    · have hkeep : ¬ (s = .outside ∧ JsonRead.isBlank (code a) = true) := by simp [hb]
      rw [if_neg hkeep]
      exact List.mem_append_left _ (List.mem_singleton_self a)
    · exact List.mem_append_right _ (ih _ ha)

end Deleted

/-! ## Deleting blanks from UTF-8 bytes -/

theorem isBlank_high (c : Nat) (h : 0x80 ≤ c) : JsonRead.isBlank c = false := by
  simp only [JsonRead.isBlank, Bool.or_eq_false_iff, decide_eq_false_iff_not]
  omega

theorem Scan.next_high (s : Scan) (c : Nat) (h : 0x80 ≤ c) : s.next c = s.next 0x80 := by
  have hq : c ≠ 0x22 := by omega
  have hbs : c ≠ 0x5C := by omega
  cases s <;> simp [Scan.next, hq, hbs]

@[simp] theorem Scan.next_next_high (s : Scan) : (s.next 0x80).next 0x80 = s.next 0x80 := by
  cases s <;> rfl

/-- A run of codes from `0x80` up is kept, and moves the scan as one such code does. -/
theorem dropBlanks_high {α : Type} (code : α → Nat) (w rest : List α)
    (hw : ∀ a ∈ w, 0x80 ≤ code a) (hne : w ≠ []) (s : Scan) :
    dropBlanks code s (w ++ rest) = w ++ dropBlanks code (s.next 0x80) rest := by
  induction w generalizing s with
  | nil => contradiction
  | cons a w ih =>
    have ha := hw a List.mem_cons_self
    have hkeep : ¬ (s = .outside ∧ JsonRead.isBlank (code a) = true) := by
      simp [isBlank_high _ ha]
    rw [List.cons_append, dropBlanks_cons, if_neg hkeep, Scan.next_high s _ ha]
    cases w with
    | nil => rfl
    | cons b w =>
      rw [ih (fun x hx => hw x (List.mem_cons_of_mem a hx)) (List.cons_ne_nil b w),
        Scan.next_next_high]
      rfl

theorem utf8Point_ascii (c : Nat) (h : c < 0x80) :
    utf8Point c = [c.toUInt8] ∧ c.toUInt8.toNat = c := by
  refine ⟨if_pos h, ?_⟩
  simp only [Nat.toUInt8_eq, UInt8.toNat_ofNat', Nat.reducePow]
  omega

theorem utf8Point_high (c : Nat) (h₁ : 0x80 ≤ c) (h₂ : c < 0x110000) :
    utf8Point c ≠ [] ∧ ∀ b ∈ utf8Point c, 0x80 ≤ b.toNat := by
  unfold utf8Point
  rw [if_neg (by omega)]
  split_ifs <;>
    refine ⟨List.cons_ne_nil _ _, ?_⟩ <;>
    simp only [List.mem_cons, List.not_mem_nil, or_false] <;>
    rintro b (rfl | rfl | rfl | rfl) <;>
    simp only [Nat.toUInt8_eq, UInt8.toNat_ofNat', Nat.reducePow] <;>
    omega

/-- Deleting blanks commutes with UTF-8: bytes below `0x80` are the code points below `0x80`, and
the bytes of every other code point are from `0x80` up. -/
theorem dropBlanks_utf8 (cs : List Nat) (hcs : ∀ c ∈ cs, c < 0x110000) (s : Scan) :
    dropBlanks UInt8.toNat s (cs.flatMap utf8Point) = (dropBlanks id s cs).flatMap utf8Point := by
  induction cs generalizing s with
  | nil => rfl
  | cons c cs ih =>
    have hrest := ih (fun x hx => hcs x (List.mem_cons_of_mem c hx))
    rw [List.flatMap_cons, dropBlanks_cons]
    by_cases hc : c < 0x80
    · obtain ⟨hbytes, hbyte⟩ := utf8Point_ascii c hc
      rw [hbytes, List.singleton_append, dropBlanks_cons, hbyte, hrest, id]
      split <;> simp [hbytes]
    · obtain ⟨hne, hhigh⟩ := utf8Point_high c (by omega) (hcs c List.mem_cons_self)
      have hkeep : ¬ (s = .outside ∧ JsonRead.isBlank (id c) = true) := by
        simp [isBlank_high c (by omega)]
      rw [dropBlanks_high UInt8.toNat _ _ hhigh hne, if_neg hkeep, id, Scan.next_high s c (by omega),
        hrest]
      simp

end BlockPlan.Json
