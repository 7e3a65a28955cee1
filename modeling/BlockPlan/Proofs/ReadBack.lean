import BlockPlan.Proofs.ScanEscapes
import BlockPlan.Proofs.IndentedText
import BlockPlan.Proofs.CodePoints
import BlockPlan.Proofs.Entries

/-!
# Reading written JSON back

A value written with a comma between items and a colon between a key and its value, each followed
by blanks only, and an indent of blanks (`Style.Plain`), is read back by `readJson` as
`readBack` says (`readJson_write`), when its doubles are finite, its whole numbers have at most
`digitLimit` digits (`Readable`) and its text is valid:

    readJson (write st j) room = .ok (readBack st.ascii j)

Reading gives strings back as they were written when text outside ASCII is kept, and with their
surrogate pairs joined when it is escaped (`readText`); the members of an object are put one by
one into the map read, a later member of a key in place of the earlier one (`readFields`). So a
value whose objects have distinct keys is read back as itself when its text is kept
(`readBack_eq_toValue`).

The reader must be given room for the value's nesting (`Json.depth`); the fuel it is given is
enough, as every container and member takes at least one code point of the text
(`weight_le_length`).

The proof follows the writing, one lemma for a value, one for the items of an array and one for
the members of an object, each case reading the text that one case of the writing produced
(`scanValue_render`, `scanItems_renderItems`, `scanMembers_renderFields`).
-/

namespace BlockPlan.Json

open JsonRead

/-! ## What reading gives back -/

/-- Text as reading gives it back: written in ASCII, its escaped code units are read back with
each high surrogate that is followed by a low one joined into one code point; written with text
outside ASCII kept, as it stands. -/
def readText (ascii : Bool) (t : Text) : Text := if ascii then t.fuse else t

@[simp] theorem readText_false (t : Text) : readText false t = t := rfl

mutual

/-- The value reading gives for the text of a JSON value: arrays as lists, objects as maps with
text keys, strings as `readText`. -/
def readBack (ascii : Bool) : Json → Value
  | .null => .null
  | .bool b => .bool b
  | .int n => .int n
  | .float x => .float x
  | .str t => .str (readText ascii t)
  | .arr items => .list (readItems ascii items)
  | .obj fields => .map ((readFields ascii fields []).map fun e => (Value.str e.1, e.2))

/-- The values of array items. -/
def readItems (ascii : Bool) : List Json → List Value
  | [] => []
  | j :: rest => readBack ascii j :: readItems ascii rest

/-- The members of an object put one by one after `acc`: each in place of an earlier member of its
key, or at the end. -/
def readFields (ascii : Bool) : List (Text × Json) → List (Text × Value) → List (Text × Value)
  | [], acc => acc
  | (k, j) :: rest, acc => readFields ascii rest (putEntry acc (readText ascii k) (readBack ascii j))

end

/-- A value whose numbers reading gives back as they stand: its doubles finite, and its whole
numbers of at most `digitLimit` digits. -/
inductive Readable : Json → Prop
  | null : Readable .null
  | bool (b : Bool) : Readable (.bool b)
  | int {n : Int} : Numeral.exceedsDigitLimit n = false → Readable (.int n)
  | float {x : Float} : x.isFinite = true → Readable (.float x)
  | str (s : Text) : Readable (.str s)
  | arr {items : List Json} : (∀ j ∈ items, Readable j) → Readable (.arr items)
  | obj {fields : List (Text × Json)} : (∀ f ∈ fields, Readable f.2) → Readable (.obj fields)

theorem readable_arr {items : List Json} (h : (Json.arr items).Readable) :
    ∀ j ∈ items, j.Readable := by
  cases h with
  | arr h => exact h

theorem readable_obj {fields : List (Text × Json)} (h : (Json.obj fields).Readable) :
    ∀ f ∈ fields, f.2.Readable := by
  cases h with
  | obj h => exact h

mutual

/-- How deep containers nest in a value; an empty container counts. -/
def depth : Json → Nat
  | .arr items => depthItems items + 1
  | .obj fields => depthFields fields + 1
  | _ => 0

/-- The deepest of the items. -/
def depthItems : List Json → Nat
  | [] => 0
  | j :: rest => max j.depth (depthItems rest)

/-- The deepest of the members' values. -/
def depthFields : List (Text × Json) → Nat
  | [] => 0
  | (_, j) :: rest => max j.depth (depthFields rest)

end

mutual

/-- The steps the reader takes on a value: one for the value, one more for each item or member. -/
def weight : Json → Nat
  | .arr items => weightItems items + 1
  | .obj fields => weightFields fields + 1
  | _ => 1

/-- The steps of the items. -/
def weightItems : List Json → Nat
  | [] => 0
  | j :: rest => j.weight + weightItems rest + 1

/-- The steps of the members. -/
def weightFields : List (Text × Json) → Nat
  | [] => 0
  | (_, j) :: rest => j.weight + weightFields rest + 1

end

theorem itemsToValues_eq (items : List Json) : itemsToValues items = items.map toValue := by
  induction items with
  | nil => rfl
  | cons j items ih => rw [itemsToValues, ih, List.map_cons]

theorem fieldsToEntries_eq (fields : List (Text × Json)) :
    fieldsToEntries fields = fields.map fun f => (Value.str f.1, f.2.toValue) := by
  induction fields with
  | nil => rfl
  | cons f fields ih =>
    obtain ⟨k, j⟩ := f
    rw [fieldsToEntries, ih, List.map_cons]

/-! ## Layouts that read back -/

/-- A layout whose text reads back: a comma between items and a colon between a key and its value,
each followed by blanks only, and an indent of blanks. -/
structure Style.Plain (st : Style) : Prop where
  itemSep : ∃ bs, st.itemSep.points = 0x2C :: bs ∧ ∀ c ∈ bs, isBlank c = true
  keySep : ∃ bs, st.keySep.points = 0x3A :: bs ∧ ∀ c ∈ bs, isBlank c = true
  indent : ∀ u ∈ st.indent, ∀ c ∈ u.points, isBlank c = true

theorem Style.plain_compact : Style.compact.Plain :=
  ⟨⟨[], rfl, by simp⟩, ⟨[], rfl, by simp⟩, forall_mem_none _⟩

theorem Style.plain_spaced : Style.spaced.Plain :=
  ⟨⟨[0x20], rfl, by decide⟩, ⟨[0x20], rfl, by decide⟩, forall_mem_none _⟩

theorem Style.plain_indented (u : Text) (hu : ∀ c ∈ u.points, isBlank c = true) (ascii : Bool) :
    (Style.indented u ascii).Plain :=
  ⟨⟨[], rfl, by simp⟩, ⟨[0x20], rfl, by decide⟩, fun u' hu' => by cases hu'; exact hu⟩

/-- What a layout writes after an opening bracket or before a closing one, and at the end of a
separator: a line break and the indent of the level, or nothing. -/
def Style.lineBreak (st : Style) (level : Nat) : List Nat :=
  match st.indent with
  | none => []
  | some unit => (newline unit level).points

/-- The level of the items of a container written at `level`. -/
def Style.inner (st : Style) (level : Nat) : Nat :=
  match st.indent with
  | none => level
  | some _ => level + 1

theorem Style.Plain.lineBreak_blanks {st : Style} (hst : st.Plain) (level : Nat) :
    ∀ c ∈ st.lineBreak level, isBlank c = true := by
  unfold Style.lineBreak
  split
  · intro c hc
    cases hc
  · rename_i unit hunit
    exact newline_blanks unit (hst.indent unit hunit) level

theorem render_arr_cons (st : Style) (level : Nat) (j : Json) (items : List Json) :
    (render st level (.arr (j :: items))).points =
      0x5B :: (st.lineBreak (level + 1) ++ (renderItems st (st.inner level) (j :: items)).points ++
        st.lineBreak level ++ [0x5D]) := by
  rcases st with ⟨itemSep, keySep, indent, ascii⟩
  cases indent
  · show 0x5B :: (renderItems _ level (j :: items)).points ++ [0x5D] = _
    simp [Style.lineBreak, Style.inner]
  · show 0x5B :: (newline _ (level + 1)).points ++ _ ++ (newline _ level).points ++ [0x5D] = _
    simp [Style.lineBreak, Style.inner]

theorem render_obj_cons (st : Style) (level : Nat) (f : Text × Json)
    (fields : List (Text × Json)) :
    (render st level (.obj (f :: fields))).points =
      0x7B :: (st.lineBreak (level + 1) ++
        (renderFields st (st.inner level) (f :: fields)).points ++ st.lineBreak level ++ [0x7D]) := by
  rcases st with ⟨itemSep, keySep, indent, ascii⟩
  cases indent
  · show 0x7B :: (renderFields _ level (f :: fields)).points ++ [0x7D] = _
    simp [Style.lineBreak, Style.inner]
  · show 0x7B :: (newline _ (level + 1)).points ++ _ ++ (newline _ level).points ++ [0x7D] = _
    simp [Style.lineBreak, Style.inner]

theorem separator_points (st : Style) (level : Nat) :
    (separator st level).points = st.itemSep.points ++ st.lineBreak level := by
  unfold separator Style.lineBreak
  cases st.indent with
  | none => exact (List.append_nil _).symm
  | some unit => rfl

/-! ## The first code point of a written value -/

/-- What may open a written value: an ASCII code point that is no blank and no stop. -/
def Opens (c : Nat) : Prop := c < 0x80 ∧ isBlank c = false ∧ isStop c = false

theorem render_first_atom (st : Style) (level : Nat) (j : Json) (cs : List Char)
    (hcs : atomChars j = some cs) :
    ∃ c rest, (render st level j).points = c :: rest ∧ Opens c := by
  obtain ⟨ch, cs', rfl⟩ := List.exists_cons_of_ne_nil (atomChars_ne_nil _ _ hcs)
  have hword := atomChars_word _ _ hcs ch List.mem_cons_self
  have hrange := word_range ch hword
  exact ⟨ch.toNat, _, by rw [render_atom _ _ _ _ hcs, List.map_cons],
    by omega, (word_plain ch hword).1, (word_point ch hword).1⟩

/-- A written value starts with an ASCII code point that is no blank and no stop. -/
theorem render_first (st : Style) (level : Nat) (j : Json) :
    ∃ c rest, (render st level j).points = c :: rest ∧ Opens c := by
  cases j with
  | str t => exact ⟨0x22, _, rfl, by decide, rfl, rfl⟩
  | arr items =>
    cases items with
    | nil => exact ⟨0x5B, _, rfl, by decide, rfl, rfl⟩
    | cons j items => exact ⟨0x5B, _, render_arr_cons st level j items, by decide, rfl, rfl⟩
  | obj fields =>
    cases fields with
    | nil => exact ⟨0x7B, _, rfl, by decide, rfl, rfl⟩
    | cons f fields => exact ⟨0x7B, _, render_obj_cons st level f fields, by decide, rfl, rfl⟩
  | null => exact render_first_atom st level _ _ rfl
  | bool b => exact render_first_atom st level _ _ rfl
  | int n => exact render_first_atom st level _ _ rfl
  | float x => exact render_first_atom st level _ _ rfl

theorem renderItems_first (st : Style) (level : Nat) (j : Json) (items : List Json) :
    ∃ c rest, (renderItems st level (j :: items)).points = c :: rest ∧ Opens c := by
  obtain ⟨c, rest, hc, hopen⟩ := render_first st level j
  cases items with
  | nil => exact ⟨c, rest, hc, hopen⟩
  | cons k items =>
    exact ⟨c, _, by rw [renderItems_cons_cons, hc, List.cons_append, List.cons_append], hopen⟩

theorem renderFields_first (st : Style) (level : Nat) (f : Text × Json)
    (fields : List (Text × Json)) :
    ∃ rest, (renderFields st level (f :: fields)).points = 0x22 :: rest := by
  obtain ⟨key, j⟩ := f
  cases fields with
  | nil => exact ⟨_, by rw [renderFields_one]; rfl⟩
  | cons g fields => exact ⟨_, by rw [renderFields_cons_cons]; rfl⟩

theorem skipBlanks_before {s : Array Nat} (bs : List Nat) (c : Nat) (more : List Nat)
    (hbs : ∀ c ∈ bs, isBlank c = true) (hc : isBlank c = false) (k : Nat)
    (h : s.toList.drop k = bs ++ c :: more) :
    skipBlanks s k = k + bs.length ∧ at? s (k + bs.length) = some c :=
  ⟨skipBlanks_run bs (c :: more) hbs (fun _ h => by cases h; exact hc) k h,
    at?_of_drop (drop_add_of_drop h)⟩

theorem skipBlanks_render {s : Array Nat} (bs : List Nat) (hbs : ∀ c ∈ bs, isBlank c = true)
    (st : Style) (level : Nat) (j : Json) (more : List Nat) (k : Nat)
    (h : s.toList.drop k = bs ++ (render st level j).points ++ more) :
    skipBlanks s k = k + bs.length := by
  obtain ⟨c, rest, hc, -, hblank, -⟩ := render_first st level j
  rw [hc, List.append_assoc, List.cons_append] at h
  exact (skipBlanks_before bs c _ hbs hblank k h).1

/-! ## Reading values -/

section Scanning

variable {s : Array Nat} {st : Style} {room : Nat}

theorem scanValue_scalar (fuel depth i c : Nat) (hc : at? s i = some c) (h1 : c ≠ 0x22)
    (h2 : c ≠ 0x7B) (h3 : c ≠ 0x5B) :
    scanValue s room (fuel + 1) depth i = scanScalar s i := by
  rw [scanValue, hc]
  split <;> simp_all

/-- A number or a literal, when readable, is read as its value. -/
theorem scanValue_atom (j : Json) (cs : List Char) (hcs : atomChars j = some cs) (hj : j.Readable)
    (level fuel depth i : Nat) (rest : List Nat) (hrest : Delimited rest)
    (h : s.toList.drop i = (render st level j).points ++ rest) :
    scanValue s room (fuel + 1) depth i = .ok (j.toValue, i + (render st level j).points.length) := by
  have hpoints := render_atom st level j cs hcs
  obtain ⟨ch, cs', hcs'⟩ := List.exists_cons_of_ne_nil (atomChars_ne_nil j cs hcs)
  have hword := word_point ch (atomChars_word j cs hcs ch (hcs' ▸ List.mem_cons_self))
  have hat : at? s i = some ch.toNat :=
    at?_of_drop (by rw [h, hpoints, hcs', List.map_cons, List.cons_append])
  have hopen := hword.2
  simp only [headKind] at hopen
  rw [scanValue_scalar fuel depth i _ hat (by intro h; simp [h] at hopen)
    (by intro h; simp [h] at hopen) (by intro h; simp [h] at hopen)]
  rw [hpoints] at h ⊢
  cases hj with
  | null =>
    cases hcs
    rw [scanScalar_null rest i h]
    rfl
  | bool b =>
    cases hcs
    rw [scanScalar_bool b rest i h]
    cases b <;> rfl
  | int hn =>
    rename_i n
    cases hcs
    have hchars : intChars n = numberChars (decide (n < 0)) (Nat.toDigits 10 n.natAbs) none none := by
      simp [intChars, numberChars, fracChars, expChars]
    rw [← intText_points] at h ⊢
    rw [scanScalar_numberChars _ _ none none (wholePart_toDigits _) rest i
      (by rw [h, intText_points, hchars]), scanNumber_intText n hn rest hrest i h]
    rfl
  | float hx =>
    rename_i x
    cases hcs
    obtain ⟨b, hb⟩ := Decimal.classify_of_isFinite x hx
    obtain ⟨w, f, e, hp, -, htext⟩ := render_numberChars Decimal.Layout.json x b hb
    rw [scanScalar_numberChars b.neg w f e hp.whole rest i (by rw [h, htext]),
      scanNumber_floatText x hx rest hrest i h]
    rfl
  | str _ => cases hcs
  | arr _ => cases hcs
  | obj _ => cases hcs

theorem readBack_atom (ascii : Bool) (j : Json) (cs : List Char) (hcs : atomChars j = some cs) :
    readBack ascii j = j.toValue := by
  cases j with
  | str _ => cases hcs
  | arr _ => cases hcs
  | obj _ => cases hcs
  | null | bool _ | int _ | float _ => rfl

theorem scanString_quote_read (ascii : Bool) (t : Text) (ht : t.Valid) (rest : List Nat) (i : Nat)
    (h : s.toList.drop i = (quote ascii t).points ++ rest) :
    scanString s i (i + 1) [] = .ok (readText ascii t, i + (quote ascii t).points.length) := by
  cases ascii with
  | false => exact scanString_quote t rest i h
  | true => exact scanString_quote_ascii t ht rest i h

theorem scanValue_str (t : Text) (ht : t.Valid) (level fuel depth i : Nat) (rest : List Nat)
    (h : s.toList.drop i = (render st level (.str t)).points ++ rest) :
    scanValue s room (fuel + 1) depth i =
      .ok (readBack st.ascii (.str t), i + (render st level (.str t)).points.length) := by
  have hquote : render st level (.str t) = quote st.ascii t := rfl
  rw [hquote] at h ⊢
  have hat : at? s i = some 0x22 := at?_of_drop (by rw [h]; rfl)
  rw [scanValue, hat]
  simp only
  rw [scanString_quote_read st.ascii t ht rest i h]
  rfl

end Scanning

/-! ## Reading containers -/

section Containers

variable {s : Array Nat} {st : Style} {room : Nat}

theorem weight_atom (j : Json) (cs : List Char) (hcs : atomChars j = some cs) : j.weight = 1 := by
  cases j with
  | str _ => cases hcs
  | arr _ => cases hcs
  | obj _ => cases hcs
  | null | bool _ | int _ | float _ => rfl

theorem scanValue_render_atom (j : Json) (cs : List Char) (hcs : atomChars j = some cs)
    (hj : j.Readable) (level fuel d i : Nat) (rest : List Nat) (hrest : Delimited rest)
    (h : s.toList.drop i = (render st level j).points ++ rest) (hw : j.weight ≤ fuel) :
    scanValue s room fuel d i = .ok (readBack st.ascii j, i + (render st level j).points.length) := by
  obtain ⟨f, rfl⟩ : ∃ f, fuel = f + 1 := ⟨fuel - 1, by rw [weight_atom j cs hcs] at hw; omega⟩
  rw [scanValue_atom j cs hcs hj level f d i rest hrest h, readBack_atom st.ascii j cs hcs]

theorem comma_ne_bracket : (some (0x2C : Nat) == some 0x5D) = false := rfl

theorem comma_ne_brace : (some (0x2C : Nat) == some 0x7D) = false := rfl

theorem comma_eq_comma : (some (0x2C : Nat) == some 0x2C) = true := rfl

theorem delimited_close (bs : List Nat) (hbs : ∀ c ∈ bs, isBlank c = true) (c : Nat)
    (hc : isStop c = true) (more : List Nat) : Delimited (bs ++ c :: more) := by
  intro x hx
  cases bs with
  | nil =>
    cases hx
    exact .inr hc
  | cons b bs =>
    cases hx
    exact .inl (hbs x List.mem_cons_self)

variable (hst : st.Plain)
include hst

mutual

/-- A readable value of valid text, written at any level and followed by what may follow a
value, is read back as `readBack` says, given room for its nesting and fuel for its steps. -/
theorem scanValue_render (level : Nat) : (j : Json) → j.Readable → j.ValidText →
    ∀ (fuel d i : Nat) (rest : List Nat), Delimited rest →
      s.toList.drop i = (render st level j).points ++ rest → j.weight ≤ fuel →
      d + j.depth ≤ room →
      scanValue s room fuel d i = .ok (readBack st.ascii j, i + (render st level j).points.length)
  | .null, hj, _ => fun fuel d i rest hrest h hw _ =>
    scanValue_render_atom .null _ rfl hj level fuel d i rest hrest h hw
  | .bool b, hj, _ => fun fuel d i rest hrest h hw _ =>
    scanValue_render_atom (.bool b) _ rfl hj level fuel d i rest hrest h hw
  | .int n, hj, _ => fun fuel d i rest hrest h hw _ =>
    scanValue_render_atom (.int n) _ rfl hj level fuel d i rest hrest h hw
  | .float x, hj, _ => fun fuel d i rest hrest h hw _ =>
    scanValue_render_atom (.float x) _ rfl hj level fuel d i rest hrest h hw
  | .str t, _, hv => fun fuel d i rest _ h hw _ => by
    obtain ⟨f, rfl⟩ : ∃ f, fuel = f + 1 := ⟨fuel - 1, by simp only [weight] at hw; omega⟩
    exact scanValue_str t (validText_str.1 hv) level f d i rest h
  | .arr [], _, _ => fun fuel d i rest _ h hw hd => by
    obtain ⟨f, rfl⟩ : ∃ f, fuel = f + 1 := ⟨fuel - 1, by simp only [weight] at hw; omega⟩
    have h' : s.toList.drop i = 0x5B :: 0x5D :: rest := h
    obtain ⟨hskip, hat⟩ := skipBlanks_before [] 0x5D rest (by simp) rfl (i + 1)
      (drop_succ_of_drop h')
    simp only [List.length_nil, Nat.add_zero] at hskip hat
    rw [scanValue, at?_of_drop h', show (render st level (.arr [])).points.length = 2 from rfl]
    simp only
    rw [if_neg (by simp only [depth, depthItems] at hd; omega)]
    simp [hskip, hat, readBack, readItems]
  | .obj [], _, _ => fun fuel d i rest _ h hw hd => by
    obtain ⟨f, rfl⟩ : ∃ f, fuel = f + 1 := ⟨fuel - 1, by simp only [weight] at hw; omega⟩
    have h' : s.toList.drop i = 0x7B :: 0x7D :: rest := h
    obtain ⟨hskip, hat⟩ := skipBlanks_before [] 0x7D rest (by simp) rfl (i + 1)
      (drop_succ_of_drop h')
    simp only [List.length_nil, Nat.add_zero] at hskip hat
    rw [scanValue, at?_of_drop h', show (render st level (.obj [])).points.length = 2 from rfl]
    simp only
    rw [if_neg (by simp only [depth, depthFields] at hd; omega)]
    simp [hskip, hat, readBack, readFields]
  | .arr (j :: items), hj, hv => fun fuel d i rest _ h hw hd => by
    obtain ⟨f, rfl⟩ : ∃ f, fuel = f + 1 := ⟨fuel - 1, by simp only [weight] at hw; omega⟩
    simp only [weight] at hw
    simp only [depth] at hd
    rw [render_arr_cons] at h ⊢
    simp only [List.cons_append, List.append_assoc, List.nil_append] at h
    obtain ⟨c, more, hc, hopen⟩ := renderItems_first st (st.inner level) j items
    have h1 := drop_succ_of_drop h
    rw [hc, List.cons_append] at h1
    obtain ⟨hskip, hat⟩ := skipBlanks_before _ c _ (hst.lineBreak_blanks (level + 1)) hopen.2.1
      (i + 1) h1
    have h2 := drop_add_of_drop h1
    rw [← List.cons_append, ← hc] at h2
    have hitems := scanItems_renderItems (st.inner level) (j :: items) (List.cons_ne_nil _ _)
      (readable_arr hj) (validText_arr.1 hv) f (d + 1) _ [] (st.lineBreak level) rest
      (hst.lineBreak_blanks level) h2 (by omega) (by omega)
    rw [scanValue, at?_of_drop h]
    simp only
    rw [if_neg (by omega), hskip, hat, if_neg (by
      have := hopen.2.2
      simp only [isStop, Bool.or_eq_false_iff, beq_eq_false_iff_ne] at this
      simp [this.1.2]), hitems]
    simp only [List.reverse_nil, List.nil_append, List.length_cons, List.length_append,
      List.length_nil]
    congr 2
    omega
  | .obj (fd :: fields), hj, hv => fun fuel d i rest _ h hw hd => by
    obtain ⟨f, rfl⟩ : ∃ f, fuel = f + 1 := ⟨fuel - 1, by simp only [weight] at hw; omega⟩
    simp only [weight] at hw
    simp only [depth] at hd
    rw [render_obj_cons] at h ⊢
    simp only [List.cons_append, List.append_assoc, List.nil_append] at h
    obtain ⟨more, hc⟩ := renderFields_first st (st.inner level) fd fields
    have h1 := drop_succ_of_drop h
    rw [hc, List.cons_append] at h1
    obtain ⟨hskip, hat⟩ := skipBlanks_before _ 0x22 _ (hst.lineBreak_blanks (level + 1)) rfl
      (i + 1) h1
    have h2 := drop_add_of_drop h1
    rw [← List.cons_append, ← hc] at h2
    have hfields := scanMembers_renderFields (st.inner level) (fd :: fields) (List.cons_ne_nil _ _)
      (readable_obj hj) (validText_obj.1 hv) f (d + 1) _ [] (st.lineBreak level) rest
      (hst.lineBreak_blanks level) h2 (by omega) (by omega)
    rw [scanValue, at?_of_drop h]
    simp only
    rw [if_neg (by omega), hskip, hat, if_neg (by decide), hfields]
    simp only [List.length_cons, List.length_append, List.length_nil]
    congr 2
    omega

/-- Readable items of valid text, written at a level and followed by blanks and the closing
bracket, are read back in order after those read before. -/
theorem scanItems_renderItems (level : Nat) : (items : List Json) → items ≠ [] →
    (∀ j ∈ items, j.Readable) → (∀ j ∈ items, j.ValidText) →
    ∀ (fuel d i : Nat) (acc : List Value) (bs more : List Nat), (∀ c ∈ bs, isBlank c = true) →
      s.toList.drop i = (renderItems st level items).points ++ (bs ++ 0x5D :: more) →
      weightItems items ≤ fuel → d + depthItems items ≤ room →
      scanItems s room fuel d i acc = .ok (.list (acc.reverse ++ readItems st.ascii items),
        i + (renderItems st level items).points.length + bs.length + 1)
  | [], hne, _, _ => absurd rfl hne
  | [j], _, hj, hv => fun fuel d i acc bs more hbs h hw hd => by
    obtain ⟨f, rfl⟩ : ∃ f, fuel = f + 1 := ⟨fuel - 1, by simp only [weightItems] at hw; omega⟩
    rw [weightItems] at hw
    rw [depthItems] at hd
    have hrender : renderItems st level [j] = render st level j := rfl
    rw [hrender] at h ⊢
    have hdelim := delimited_close bs hbs 0x5D rfl more
    have hval := scanValue_render level j (hj j List.mem_cons_self) (hv j List.mem_cons_self) f d i
      _ hdelim h (by omega) (by omega)
    obtain ⟨hskip, hat⟩ := skipBlanks_before bs 0x5D more hbs rfl _ (drop_add_of_drop h)
    rw [scanItems, hval]
    simp only [bind, Except.bind, hskip, hat, beq_self_eq_true, if_true, pure, Except.pure,
      List.reverse_cons, readItems]
  | j :: k :: items, _, hj, hv => fun fuel d i acc bs more hbs h hw hd => by
    obtain ⟨f, rfl⟩ : ∃ f, fuel = f + 1 := ⟨fuel - 1, by simp only [weightItems] at hw; omega⟩
    rw [weightItems] at hw
    rw [depthItems] at hd
    obtain ⟨sepBlanks, hsep, hsepBlanks⟩ := hst.itemSep
    rw [renderItems_cons_cons, separator_points, hsep] at h
    simp only [List.append_assoc, List.cons_append] at h
    have hval := scanValue_render level j (hj j List.mem_cons_self) (hv j List.mem_cons_self) f d i
      _ (fun c hc => by cases hc; exact .inr rfl) h (by omega) (by omega)
    have h1 := drop_add_of_drop h
    obtain ⟨hskip, hat⟩ := skipBlanks_before [] 0x2C _ (by simp) rfl _ h1
    simp only [List.length_nil, Nat.add_zero] at hskip hat
    obtain ⟨c, rest', hc, hopen⟩ := renderItems_first st level k items
    have h2 := drop_succ_of_drop h1
    rw [← List.append_assoc, hc, List.cons_append] at h2
    obtain ⟨hskip2, -⟩ := skipBlanks_before _ c _
      (List.forall_mem_append.2 ⟨hsepBlanks, hst.lineBreak_blanks level⟩) hopen.2.1 _ h2
    have h3 := drop_add_of_drop h2
    rw [← List.cons_append, ← hc] at h3
    have hrest := scanItems_renderItems level (k :: items) (List.cons_ne_nil _ _)
      (fun x hx => hj x (List.mem_cons_of_mem j hx)) (fun x hx => hv x (List.mem_cons_of_mem j hx))
      f d _ (readBack st.ascii j :: acc) bs more hbs h3 (by omega) (by omega)
    rw [scanItems, hval]
    simp only [bind, Except.bind, hskip, hat, comma_ne_bracket, comma_eq_comma, Bool.false_eq_true,
      if_false, if_true]
    rw [hskip2, hrest]
    simp only [List.reverse_cons, List.append_assoc, List.singleton_append, readItems,
      renderItems_cons_cons, separator_points, hsep, List.length_append, List.length_cons]
    congr 2
    omega

/-- Readable members of valid text, written at a level and followed by blanks and the closing
brace, are put in order into the map of those read before. -/
theorem scanMembers_renderFields (level : Nat) : (fields : List (Text × Json)) → fields ≠ [] →
    (∀ f ∈ fields, f.2.Readable) → ValidFields fields →
    ∀ (fuel d i : Nat) (acc : List (Text × Value)) (bs more : List Nat),
      (∀ c ∈ bs, isBlank c = true) →
      s.toList.drop i = (renderFields st level fields).points ++ (bs ++ 0x7D :: more) →
      weightFields fields ≤ fuel → d + depthFields fields ≤ room →
      scanMembers s room fuel d i acc =
        .ok (.map ((readFields st.ascii fields acc).map fun e => (Value.str e.1, e.2)),
          i + (renderFields st level fields).points.length + bs.length + 1)
  | [], hne, _, _ => absurd rfl hne
  | [(key, j)], _, hj, hv => fun fuel d i acc bs more hbs h hw hd => by
    obtain ⟨f, rfl⟩ : ∃ f, fuel = f + 1 := ⟨fuel - 1, by simp only [weightFields] at hw; omega⟩
    rw [weightFields] at hw
    rw [depthFields] at hd
    obtain ⟨⟨hkey, hval⟩, -⟩ := validFields_cons.1 hv
    obtain ⟨keyBlanks, hks, hkeyBlanks⟩ := hst.keySep
    rw [renderFields_one, hks] at h
    simp only [List.append_assoc, List.cons_append] at h
    have hkeyRead := scanString_quote_read st.ascii key hkey _ i h
    have h1 := drop_add_of_drop h
    obtain ⟨hskip, hat⟩ := skipBlanks_before [] 0x3A _ (by simp) rfl _ h1
    simp only [List.length_nil, Nat.add_zero] at hskip hat
    have h2 := drop_succ_of_drop h1
    have hskip2 := skipBlanks_render keyBlanks hkeyBlanks st level j _ _
      (by rw [h2, List.append_assoc])
    have h3 := drop_add_of_drop h2
    have hdelim := delimited_close bs hbs 0x7D rfl more
    have hvalue := scanValue_render level j (hj _ List.mem_cons_self) hval f d _ _ hdelim h3
      (by omega) (by omega)
    obtain ⟨hskip3, hat3⟩ := skipBlanks_before bs 0x7D more hbs rfl _ (drop_add_of_drop h3)
    rw [scanMembers, at?_of_drop h]
    simp only [bne_self_eq_false, Bool.false_eq_true, if_false]
    rw [hkeyRead]
    simp only [bind, Except.bind, hskip, hat, bne_self_eq_false, Bool.false_eq_true, if_false]
    rw [hskip2, hvalue]
    simp only [hskip3, hat3, beq_self_eq_true, if_true, pure, Except.pure, readFields,
      renderFields_one, hks, List.length_append, List.length_cons]
    congr 2
    omega
  | (key, j) :: fd :: fields, _, hj, hv => fun fuel d i acc bs more hbs h hw hd => by
    obtain ⟨f, rfl⟩ : ∃ f, fuel = f + 1 := ⟨fuel - 1, by simp only [weightFields] at hw; omega⟩
    rw [weightFields] at hw
    rw [depthFields] at hd
    obtain ⟨⟨hkey, hval⟩, hvrest⟩ := validFields_cons.1 hv
    obtain ⟨keyBlanks, hks, hkeyBlanks⟩ := hst.keySep
    obtain ⟨sepBlanks, hsep, hsepBlanks⟩ := hst.itemSep
    rw [renderFields_cons_cons, separator_points, hks, hsep] at h
    simp only [List.append_assoc, List.cons_append] at h
    have hkeyRead := scanString_quote_read st.ascii key hkey _ i h
    have h1 := drop_add_of_drop h
    obtain ⟨hskip, hat⟩ := skipBlanks_before [] 0x3A _ (by simp) rfl _ h1
    simp only [List.length_nil, Nat.add_zero] at hskip hat
    have h2 := drop_succ_of_drop h1
    have hskip2 := skipBlanks_render keyBlanks hkeyBlanks st level j _ _
      (by rw [h2, List.append_assoc])
    have h3 := drop_add_of_drop h2
    have hvalue := scanValue_render level j (hj _ List.mem_cons_self) hval f d _ _
      (fun c hc => by cases hc; exact .inr rfl) h3 (by omega) (by omega)
    have h4 := drop_add_of_drop h3
    obtain ⟨hskip3, hat3⟩ := skipBlanks_before [] 0x2C _ (by simp) rfl _ h4
    simp only [List.length_nil, Nat.add_zero] at hskip3 hat3
    obtain ⟨more', hc⟩ := renderFields_first st level fd fields
    have h5 := drop_succ_of_drop h4
    rw [← List.append_assoc, hc, List.cons_append] at h5
    obtain ⟨hskip4, -⟩ := skipBlanks_before _ 0x22 _
      (List.forall_mem_append.2 ⟨hsepBlanks, hst.lineBreak_blanks level⟩) rfl _ h5
    have h6 := drop_add_of_drop h5
    rw [← List.cons_append, ← hc] at h6
    have hrest := scanMembers_renderFields level (fd :: fields) (List.cons_ne_nil _ _)
      (fun x hx => hj x (List.mem_cons_of_mem _ hx)) hvrest f d _
      (putEntry acc (readText st.ascii key) (readBack st.ascii j)) bs more hbs h6 (by omega)
      (by omega)
    rw [scanMembers, at?_of_drop h]
    simp only [bne_self_eq_false, Bool.false_eq_true, if_false]
    rw [hkeyRead]
    simp only [bind, Except.bind, hskip, hat, bne_self_eq_false, Bool.false_eq_true, if_false]
    rw [hskip2, hvalue]
    simp only [hskip3, hat3, comma_ne_brace, comma_eq_comma, Bool.false_eq_true, if_false, if_true]
    rw [hskip4, hrest]
    simp only [readFields, renderFields_cons_cons, separator_points, hks, hsep, List.length_append,
      List.length_cons]
    congr 2
    omega

end

end Containers

/-! ## Reading a whole document -/

section Documents

variable {st : Style}

theorem one_le_length (st : Style) (level : Nat) (j : Json) :
    1 ≤ (render st level j).points.length := by
  obtain ⟨c, rest, hc, -⟩ := render_first st level j
  rw [hc, List.length_cons]
  omega

mutual

/-- A written value is at least as long as the steps the reader takes on it. -/
theorem weight_le_length (hst : st.Plain) (level : Nat) : (j : Json) → j.weight ≤ (render st level j).points.length
  | .null => one_le_length st level _
  | .bool _ => one_le_length st level _
  | .int _ => one_le_length st level _
  | .float _ => one_le_length st level _
  | .str _ => one_le_length st level _
  | .arr [] => one_le_length st level _
  | .obj [] => one_le_length st level _
  | .arr (j :: items) => by
    have hitems := weightItems_le_length hst (st.inner level) (j :: items)
    rw [weight, render_arr_cons]
    simp only [List.length_cons, List.length_append]
    omega
  | .obj (f :: fields) => by
    have hfields := weightFields_le_length hst (st.inner level) (f :: fields)
    rw [weight, render_obj_cons]
    simp only [List.length_cons, List.length_append]
    omega

/-- Written items are at least as long as the steps of the items, but for the last separator
that is not written. -/
theorem weightItems_le_length (hst : st.Plain) (level : Nat) :
    (items : List Json) → weightItems items ≤ (renderItems st level items).points.length + 1
  | [] => Nat.zero_le _
  | [j] => by
    have hj := weight_le_length hst level j
    rw [weightItems, weightItems]
    exact Nat.add_le_add_right hj 1
  | j :: k :: items => by
    have hj := weight_le_length hst level j
    have hrest := weightItems_le_length hst level (k :: items)
    obtain ⟨bs, hsep, -⟩ := hst.itemSep
    rw [weightItems, renderItems_cons_cons, separator_points, hsep]
    simp only [List.length_append, List.length_cons]
    omega

/-- Written members are at least as long as the steps of the members. -/
theorem weightFields_le_length (hst : st.Plain) (level : Nat) :
    (fields : List (Text × Json)) → weightFields fields ≤ (renderFields st level fields).points.length + 1
  | [] => Nat.zero_le _
  | [(key, j)] => by
    have hj := weight_le_length hst level j
    rw [weightFields, weightFields, renderFields_one]
    simp only [List.length_append]
    omega
  | (key, j) :: f :: fields => by
    have hj := weight_le_length hst level j
    have hrest := weightFields_le_length hst level (f :: fields)
    obtain ⟨bs, hsep, -⟩ := hst.itemSep
    rw [weightFields, renderFields_cons_cons, separator_points, hsep]
    simp only [List.length_append, List.length_cons]
    omega

end

/-- A readable value of valid text, written in a plain layout, is read back as `readBack` says
when the reader is given room for its nesting. -/
theorem readJson_write (hst : st.Plain) (j : Json) (hj : j.Readable) (hv : j.ValidText) (room : Nat)
    (hroom : j.depth ≤ room) : readJson (write st j) room = .ok (readBack st.ascii j) := by
  obtain ⟨c, rest, hc, hopen⟩ := render_first st 0 j
  have hdrop : (write st j).points.toArray.toList.drop 0 = (render st 0 j).points ++ [] := by
    rw [List.toList_toArray, List.drop_zero, List.append_nil]
    rfl
  have hsize : (write st j).points.toArray.size = (render st 0 j).points.length := by
    rw [List.size_toArray]
    rfl
  have hfirst : (write st j).points.toArray[0]? = some c := by
    have := at?_of_drop (by rw [hdrop, List.append_nil, hc])
    exact this
  have hskip : skipBlanks (write st j).points.toArray 0 = 0 :=
    (skipBlanks_before [] c rest (by simp) hopen.2.1 0 (by rw [hdrop, hc]; simp)).1
  have hread : scanValue (write st j).points.toArray room (2 * (write st j).points.toArray.size + 2)
      0 0 = .ok (readBack st.ascii j, 0 + (render st 0 j).points.length) :=
    scanValue_render hst 0 j hj hv _ 0 0 []
    (by simp [Delimited]) hdrop (by have := weight_le_length hst 0 j; rw [hsize]; omega) (by omega)
  have hend : skipBlanks (write st j).points.toArray (0 + (render st 0 j).points.length) =
      (render st 0 j).points.length :=
    by rw [skipBlanks_run [] [] (by simp) (by simp) _ (drop_add_of_drop hdrop)]; simp
  have hbom : (some c == some 0xFEFF) = false := by
    have := hopen.1
    simp only [beq_eq_false_iff_ne, ne_eq, Option.some.injEq]
    omega
  rw [readJson]
  simp only [hfirst, hbom, hskip, Bool.false_eq_true, if_false]
  rw [hread]
  simp only [bind, Except.bind, hend, hsize, ne_eq, not_true_eq_false, if_false, pure, Except.pure]

end Documents

/-! ## Values read back as themselves -/

/-- A value that reading gives back as it stands: its numbers readable and the keys of each of its
objects distinct, as those of a map are. -/
inductive RoundTrips : Json → Prop
  | null : RoundTrips .null
  | bool (b : Bool) : RoundTrips (.bool b)
  | int {n : Int} : Numeral.exceedsDigitLimit n = false → RoundTrips (.int n)
  | float {x : Float} : x.isFinite = true → RoundTrips (.float x)
  | str (s : Text) : RoundTrips (.str s)
  | arr {items : List Json} : (∀ j ∈ items, RoundTrips j) → RoundTrips (.arr items)
  | obj {fields : List (Text × Json)} : (fields.map Prod.fst).Nodup →
      (∀ f ∈ fields, RoundTrips f.2) → RoundTrips (.obj fields)

theorem RoundTrips.readable {j : Json} (h : j.RoundTrips) : j.Readable := by
  induction h with
  | null => exact .null
  | bool b => exact .bool b
  | int hn => exact .int hn
  | float hx => exact .float hx
  | str s => exact .str s
  | arr _ ih => exact .arr ih
  | obj _ _ ih => exact .obj ih

theorem readItems_eq (ascii : Bool) (items : List Json) :
    readItems ascii items = items.map (readBack ascii) := by
  induction items with
  | nil => rfl
  | cons j items ih => rw [readItems, ih, List.map_cons]

/-- Members with distinct keys, none of them put before, are put one after another. -/
theorem readFields_of_nodup (fields : List (Text × Json)) (hnodup : (fields.map Prod.fst).Nodup) :
    ∀ acc : List (Text × Value), (∀ f ∈ fields, f.1 ∉ acc.map Prod.fst) →
      readFields false fields acc = acc ++ fields.map fun f => (f.1, readBack false f.2) := by
  induction fields with
  | nil => intro acc _; rw [readFields, List.map_nil, List.append_nil]
  | cons f fields ih =>
    obtain ⟨key, j⟩ := f
    intro acc hfresh
    rw [List.map_cons, List.nodup_cons] at hnodup
    have hkey : key ∉ acc.map Prod.fst := hfresh (key, j) List.mem_cons_self
    have hput : putEntry acc (readText false key) (readBack false j) =
        acc ++ [(key, readBack false j)] := by
      unfold putEntry
      rw [readText_false, if_neg (mt (any_key_eq_iff acc key).1 hkey)]
    -- the keys still to come are neither among those put before nor the one put now
    have hrest : ∀ g ∈ fields, g.1 ∉ (acc ++ [(key, readBack false j)]).map Prod.fst := by
      intro g hg
      rw [List.map_append, List.mem_append, not_or]
      refine ⟨hfresh g (List.mem_cons_of_mem _ hg), ?_⟩
      rintro hg'
      rw [List.map_singleton, List.mem_singleton] at hg'
      exact hnodup.1 (hg' ▸ List.mem_map_of_mem hg)
    rw [readFields, hput, ih hnodup.2 _ hrest, List.map_cons, List.append_assoc,
      List.singleton_append]

theorem readBack_eq_toValue {j : Json} (h : j.RoundTrips) : readBack false j = j.toValue := by
  induction h with
  | null | bool _ | int _ | float _ | str _ => rfl
  | @arr items _ ih =>
    rw [readBack, Json.toValue, readItems_eq, itemsToValues_eq]
    exact congrArg Value.list (List.map_congr_left ih)
  | @obj fields hnodup _ ih =>
    rw [readBack, Json.toValue, fieldsToEntries_eq, readFields_of_nodup fields hnodup [] nofun,
      List.nil_append, List.map_map]
    exact congrArg Value.map (List.map_congr_left fun f hf => by simp [ih f hf])

end BlockPlan.Json
