import BlockPlan.Proofs.DocumentKeys
import BlockPlan.Proofs.Utf8Decode
import BlockPlan.Proofs.WireFaults

/-!
# Plan text reads back as its document

Plan text is written with text outside ASCII kept, under a layout of commas, colons and blanks.
Outside ASCII it holds exactly the code points of the strings and keys of the document
(`Json.mem_render_iff`), so it holds a surrogate exactly when some string or key of the document
does (`Json.HoldsSurrogate`). For modules whose texts are valid and whose blocks have values
under distinct keys, and whose plan is built, `planText_reads_back` gives:

* the plan has no document exactly when the writer meets a fault in it (`Plan.wireFaults`): a
  value nested past the serializer's limit, or a key inside a value that holds a surrogate.
  Writing then fails before any text is made, with the first fault, whose message is not that of
  a run of surrogates in written text (`surrogate_key_refuses_document`);
* otherwise writing fails exactly when the document holds a surrogate, and then with the first
  run of surrogates in the whole text;
* and otherwise the text is encoded as UTF-8 that decodes back into it, and reading the text
  gives the document back, every key in its place and every number as it was.
-/

namespace BlockPlan

namespace Json

/-! ## The texts of a document -/

mutual

/-- The strings and keys of a value, in the order they are written. -/
def texts : Json → List Text
  | .str s => [s]
  | .arr items => textsItems items
  | .obj fields => textsFields fields
  | _ => []

/-- The strings and keys of array items. -/
def textsItems : List Json → List Text
  | [] => []
  | j :: rest => j.texts ++ textsItems rest

/-- The keys of object members, each before the strings and keys of its value. -/
def textsFields : List (Text × Json) → List Text
  | [] => []
  | (k, j) :: rest => k :: (j.texts ++ textsFields rest)

end

/-- Some string or key of a value, at any depth, holds a surrogate. -/
def HoldsSurrogate (j : Json) : Prop := ∃ t ∈ j.texts, ∃ c ∈ t.points, isSurrogate c = true

/-! ## Code points outside ASCII in written text -/

theorem not_mem_of_ascii {l : List Nat} (hl : ∀ d ∈ l, d < 0x80) {c : Nat} (hc : 0x80 ≤ c) :
    c ∉ l := fun h => absurd (hl c h) (by omega)

theorem digitChar_lt (k : Nat) (hk : k < 16) : (Nat.digitChar k).toNat < 0x80 := by
  interval_cases k <;> decide

theorem unicodeEscape_ascii (n : Nat) (hn : n < 0x10000) : ∀ e ∈ unicodeEscape n, e < 0x80 := by
  rw [unicodeEscape_eq n hn]
  intro e he
  simp only [List.mem_cons, List.not_mem_nil, or_false] at he
  rcases he with rfl | rfl | rfl | rfl | rfl | rfl
  · decide
  · decide
  · exact digitChar_lt _ (by omega)
  · exact digitChar_lt _ (Nat.mod_lt _ (by decide))
  · exact digitChar_lt _ (Nat.mod_lt _ (by decide))
  · exact digitChar_lt _ (Nat.mod_lt _ (by decide))

/-- An ASCII code point is escaped as ASCII. -/
theorem escapePoint_ascii (ascii : Bool) (d : Nat) (hd : d < 0x80) :
    ∀ e ∈ escapePoint ascii d, e < 0x80 := by
  have hwide : d < 0x10000 := Nat.lt_trans hd (by decide)
  unfold escapePoint
  by_cases h1 : d = 0x22
  · rw [if_pos h1]
    decide
  rw [if_neg h1]
  by_cases h2 : d = 0x5C
  · rw [if_pos h2]
    decide
  rw [if_neg h2]
  by_cases h3 : d = 0x0A
  · rw [if_pos h3]
    decide
  rw [if_neg h3]
  by_cases h4 : d = 0x0D
  · rw [if_pos h4]
    decide
  rw [if_neg h4]
  by_cases h5 : d = 0x09
  · rw [if_pos h5]
    decide
  rw [if_neg h5]
  by_cases h6 : d = 0x08
  · rw [if_pos h6]
    decide
  rw [if_neg h6]
  by_cases h7 : d = 0x0C
  · rw [if_pos h7]
    decide
  rw [if_neg h7]
  -- the other code points are kept or written as one escape: with `hwide` never as two
  by_cases h8 : d < 0x20
  · rw [if_pos h8]
    exact unicodeEscape_ascii d hwide
  rw [if_neg h8]
  by_cases h9 : (!ascii || decide (d ≤ 0x7E)) = true
  · rw [if_pos h9]
    intro e he
    rw [List.mem_singleton.1 he]
    exact hd
  rw [if_neg h9, if_pos hwide]
  exact unicodeEscape_ascii d hwide

theorem escapePoint_wide (d : Nat) (hd : 0x80 ≤ d) : escapePoint false d = [d] := by
  unfold escapePoint
  simp only [show d ≠ 0x22 by omega, show d ≠ 0x5C by omega, show d ≠ 0x0A by omega,
    show d ≠ 0x0D by omega, show d ≠ 0x09 by omega, show d ≠ 0x08 by omega,
    show d ≠ 0x0C by omega, show ¬d < 0x20 by omega, if_false, Bool.not_false, Bool.true_or,
    if_true]

theorem mem_escapePoint_iff (d : Nat) {c : Nat} (hc : 0x80 ≤ c) :
    c ∈ escapePoint false d ↔ c = d := by
  by_cases hd : d < 0x80
  · exact ⟨fun h => absurd h (not_mem_of_ascii (escapePoint_ascii false d hd) hc),
      fun h => by omega⟩
  · rw [escapePoint_wide d (by omega), List.mem_singleton]

/-- Outside ASCII, a quoted string with text outside ASCII kept holds the code points of the
string. -/
theorem mem_quote_iff (t : Text) {c : Nat} (hc : 0x80 ≤ c) :
    c ∈ (quote false t).points ↔ c ∈ t.points := by
  have hquote : c ≠ 0x22 := by omega
  simp [quote, mem_escapePoint_iff _ hc, hquote]

theorem Style.Plain.itemSep_ascii {st : Style} (hst : st.Plain) :
    ∀ d ∈ st.itemSep.points, d < 0x80 := by
  obtain ⟨bs, hsep, hbs⟩ := hst.itemSep
  rw [hsep]
  intro d hd
  rcases List.mem_cons.1 hd with rfl | hd
  · decide
  · exact lt_of_isBlank d (hbs d hd)

theorem Style.Plain.keySep_ascii {st : Style} (hst : st.Plain) :
    ∀ d ∈ st.keySep.points, d < 0x80 := by
  obtain ⟨bs, hsep, hbs⟩ := hst.keySep
  rw [hsep]
  intro d hd
  rcases List.mem_cons.1 hd with rfl | hd
  · decide
  · exact lt_of_isBlank d (hbs d hd)

theorem Style.Plain.lineBreak_ascii {st : Style} (hst : st.Plain) (level : Nat) :
    ∀ d ∈ st.lineBreak level, d < 0x80 :=
  fun d hd => lt_of_isBlank d (hst.lineBreak_blanks level d hd)

theorem Style.Plain.separator_ascii {st : Style} (hst : st.Plain) (level : Nat) :
    ∀ d ∈ (separator st level).points, d < 0x80 := by
  rw [separator_points]
  exact List.forall_mem_append.2 ⟨hst.itemSep_ascii, hst.lineBreak_ascii level⟩

theorem render_atom_ascii (st : Style) (level : Nat) (j : Json) (cs : List Char)
    (h : atomChars j = some cs) : ∀ d ∈ (render st level j).points, d < 0x80 := by
  rw [render_atom st level j cs h]
  intro d hd
  obtain ⟨ch, hch, rfl⟩ := List.mem_map.1 hd
  have := word_range ch (atomChars_word j cs h ch hch)
  omega

section Render

variable {st : Style} {c : Nat}

mutual

/-- Outside ASCII, a value written with text outside ASCII kept holds the code points of its
strings and keys, and no other. -/
theorem mem_render_iff (hst : st.Plain) (hascii : st.ascii = false) (hc : 0x80 ≤ c)
    (level : Nat) :
    (j : Json) → (c ∈ (render st level j).points ↔ ∃ t ∈ j.texts, c ∈ t.points)
  | .null => by
    simp [not_mem_of_ascii (render_atom_ascii st level .null _ rfl) hc, texts]
  | .bool b => by
    simp [not_mem_of_ascii (render_atom_ascii st level (.bool b) _ rfl) hc, texts]
  | .int n => by
    simp [not_mem_of_ascii (render_atom_ascii st level (.int n) _ rfl) hc, texts]
  | .float x => by
    simp [not_mem_of_ascii (render_atom_ascii st level (.float x) _ rfl) hc, texts]
  | .str s => by
    show c ∈ (quote st.ascii s).points ↔ _
    rw [hascii, mem_quote_iff s hc]
    simp [texts]
  | .arr [] => by
    show c ∈ [0x5B, 0x5D] ↔ _
    exact iff_of_false (not_mem_of_ascii (by decide) hc) (by simp [texts, textsItems])
  | .obj [] => by
    show c ∈ [0x7B, 0x7D] ↔ _
    exact iff_of_false (not_mem_of_ascii (by decide) hc) (by simp [texts, textsFields])
  | .arr (j :: items) => by
    have hopen : c ≠ 0x5B := by omega
    have hclose : c ≠ 0x5D := by omega
    rw [render_arr_cons, texts, ← mem_renderItems_iff hst hascii hc (st.inner level) (j :: items)]
    simp [not_mem_of_ascii (hst.lineBreak_ascii _) hc, hopen, hclose]
  | .obj (f :: fields) => by
    have hopen : c ≠ 0x7B := by omega
    have hclose : c ≠ 0x7D := by omega
    rw [render_obj_cons, texts, ← mem_renderFields_iff hst hascii hc (st.inner level) (f :: fields)]
    simp [not_mem_of_ascii (hst.lineBreak_ascii _) hc, hopen, hclose]

theorem mem_renderItems_iff (hst : st.Plain) (hascii : st.ascii = false) (hc : 0x80 ≤ c)
    (level : Nat) :
    (items : List Json) →
      (c ∈ (renderItems st level items).points ↔ ∃ t ∈ textsItems items, c ∈ t.points)
  | [] => by simp [renderItems, textsItems, Text.empty]
  | [j] => by
    rw [show renderItems st level [j] = render st level j from rfl, mem_render_iff hst hascii hc level j]
    simp [textsItems]
  | j :: k :: items => by
    rw [renderItems_cons_cons, textsItems]
    simp only [List.mem_append, not_mem_of_ascii (hst.separator_ascii level) hc, or_false,
      mem_render_iff hst hascii hc level j, mem_renderItems_iff hst hascii hc level (k :: items), or_and_right, exists_or]

theorem mem_renderFields_iff (hst : st.Plain) (hascii : st.ascii = false) (hc : 0x80 ≤ c)
    (level : Nat) :
    (fields : List (Text × Json)) →
      (c ∈ (renderFields st level fields).points ↔ ∃ t ∈ textsFields fields, c ∈ t.points)
  | [] => by simp [renderFields, textsFields, Text.empty]
  | [(key, j)] => by
    rw [renderFields_one, textsFields]
    simp only [List.mem_append, not_mem_of_ascii hst.keySep_ascii hc, or_false, hascii,
      mem_quote_iff key hc, mem_render_iff hst hascii hc level j]
    simp [textsFields]
  | (key, j) :: f :: fields => by
    rw [renderFields_cons_cons, textsFields]
    simp only [List.mem_append, not_mem_of_ascii hst.keySep_ascii hc,
      not_mem_of_ascii (hst.separator_ascii level) hc, or_false, hascii, mem_quote_iff key hc,
      mem_render_iff hst hascii hc level j, mem_renderFields_iff hst hascii hc level (f :: fields), List.mem_cons,
      or_and_right, exists_or, exists_eq_left, or_assoc]

end

end Render

theorem le_of_isSurrogate {c : Nat} (h : isSurrogate c = true) : 0x80 ≤ c := by
  simp only [isSurrogate, Bool.and_eq_true, decide_eq_true_eq] at h
  omega

/-- Written with text outside ASCII kept, a value holds a surrogate exactly when one of its
strings or keys does. -/
theorem firstSurrogateRun_write_eq_none_iff {st : Style} (hst : st.Plain)
    (hascii : st.ascii = false) (j : Json) :
    (write st j).firstSurrogateRun = none ↔ ¬ j.HoldsSurrogate := by
  rw [Text.firstSurrogateRun_eq_none_iff]
  constructor
  · rintro h ⟨t, ht, c, hc, hs⟩
    have hwritten := (mem_render_iff hst hascii (le_of_isSurrogate hs) 0 j).2 ⟨t, ht, hc⟩
    rw [h c hwritten] at hs
    cases hs
  · intro h c hc
    cases hs : isSurrogate c with
    | false => rfl
    | true =>
      obtain ⟨t, ht, hct⟩ := (mem_render_iff hst hascii (le_of_isSurrogate hs) 0 j).1 hc
      exact absurd ⟨t, ht, c, hct, hs⟩ h

end Json

/-! ## Plan text -/

/-- The layout of plan text under no indent or an indent of blanks reads back, and keeps text
outside ASCII. -/
theorem Indent.style_plain (indent : Option Indent) (hind : ∀ ind ∈ indent, ind.Blank) :
    (Indent.style indent).Plain ∧ (Indent.style indent).ascii = false := by
  cases indent with
  | none => exact ⟨Json.Style.plain_compact, rfl⟩
  | some ind =>
    obtain ⟨u, hstyle, hu⟩ := (hind ind rfl).style
    rw [hstyle]
    exact ⟨Json.Style.plain_indented u hu false, rfl⟩

theorem Json.Style.Plain.valid {st : Json.Style} (hst : st.Plain) : st.Valid := by
  have hlt : ∀ c, c < 0x80 → c < 0x110000 := fun c hc => by omega
  exact ⟨fun c hc => hlt c (hst.itemSep_ascii c hc), fun c hc => hlt c (hst.keySep_ascii c hc),
    fun u hu c hc => hlt c (lt_of_isBlank c (hst.indent u hu c hc))⟩

/-- Plan text of modules whose plan has a document is that document written, or fails with the
first run of surrogates in it. -/
theorem Plan.render_of_toJson {ms : List Module} {p : Plan} (hp : Plan.ofModules ms = .ok p)
    {D : Json} (hD : p.toJson = .ok D) (indent : Option Indent) :
    Plan.render ms indent =
      match (Json.write (Indent.style indent) D).firstSurrogateRun with
      | some run => .error (.wire (.surrogates run))
      | none => .ok (Json.write (Indent.style indent) D) := by
  unfold Plan.render
  cases hrun : (Json.write (Indent.style indent) D).firstSurrogateRun <;>
    simp [hp, hD, hrun, Except.mapError, bind, Except.bind, throw, throwThe, MonadExceptOf.throw,
      pure, Except.pure]

/-- Plan text of a document, under no indent or an indent of blanks: it fails exactly when a
string or key of the document holds a surrogate, with the first run of surrogates in the whole
text; otherwise its UTF-8 bytes decode back into it, and reading it gives the document back, given
room for its nesting. -/
theorem planText_of_toJson (ms : List Module) (hms : ∀ m ∈ ms, m.ValidText)
    (hapart : ∀ m ∈ ms, ∀ b ∈ m.blocks, ∀ d ∈ b.tree, d.ValuesApart)
    (indent : Option Indent) (hind : ∀ ind ∈ indent, ind.Blank)
    (p : Plan) (hp : Plan.ofModules ms = .ok p) (D : Json) (hD : p.toJson = .ok D) :
    ((∃ f, planText ms indent = .error f) ↔ D.HoldsSurrogate) ∧
    (∀ f, planText ms indent = .error f → ∃ run,
      (Json.write (Indent.style indent) D).firstSurrogateRun = some run ∧
      f = .of .planSerialization ("error handling built plan json from hcl: " ++ run.message)) ∧
    (∀ t, planText ms indent = .ok t → ∃ bytes, t.utf8 = .ok bytes ∧ decodeUtf8 bytes = .ok t ∧
      ∀ room, D.depth ≤ room → readJson t room = .ok D.toValue) := by
  obtain ⟨hplain, hascii⟩ := Indent.style_plain indent hind
  have hvalid := (Plan.validText_ofModules ms hms p hp).toJson hD
  have hround := (Plan.roundTrips_ofModules ms hapart p hp).toJson hD
  have hsurrogate := Json.firstSurrogateRun_write_eq_none_iff hplain hascii D
  have htext : planText ms indent = (Plan.render ms indent).mapError PlanError.failure := rfl
  rw [Plan.render_of_toJson hp hD indent] at htext
  cases hrun : (Json.write (Indent.style indent) D).firstSurrogateRun with
  | some run =>
    rw [hrun] at htext hsurrogate
    refine ⟨⟨fun _ => ?_, fun _ => ⟨_, htext⟩⟩, fun f hf => ⟨run, rfl, ?_⟩, fun t ht => ?_⟩
    · by_contra hnone
      exact absurd (hsurrogate.2 hnone) (by simp)
    · rw [htext] at hf
      cases hf
      rfl
    · rw [htext] at ht
      cases ht
  | none =>
    rw [hrun] at htext hsurrogate
    refine ⟨⟨fun hfails => ?_, fun hs => absurd hs (hsurrogate.1 rfl)⟩, fun f hf => ?_,
      fun t ht => ?_⟩
    · obtain ⟨f, hf⟩ := hfails
      rw [htext] at hf
      cases hf
    · rw [htext] at hf
      cases hf
    · rw [htext] at ht
      cases ht
      have hbytes := Text.utf8_of_firstSurrogateRun _ hrun
      refine ⟨_, hbytes, decodeUtf8_of_utf8 (Json.valid_write hplain.valid D hvalid) hbytes,
        fun room hroom => ?_⟩
      rw [Json.readJson_write hplain D hround.readable hvalid room hroom, hascii,
        Json.readBack_eq_toValue hround]

theorem planText_of_wireFault {ms : List Module} {p : Plan} (hp : Plan.ofModules ms = .ok p)
    {w : WireError} (hw : p.toJson = .error w) (indent : Option Indent) :
    planText ms indent = .error (PlanError.wire w).failure := by
  simp [planText, Plan.render, hp, hw, Except.mapError, bind, Except.bind]

/-- Plan text of modules with valid text whose plan is built, under no indent or an indent of
blanks. The plan's document is refused at the first fault the writer meets in it, a value nested
past the serializer's limit or a key inside a value that holds a surrogate, and plan text then
fails with that fault. There is no fault exactly when every value under a key chosen by the
configuration nests within the limit and holds no key with a surrogate; the plan then has a
document, and plan text fails exactly when a string or key of the document holds a surrogate,
with the first run of surrogates in the whole text; otherwise its UTF-8 bytes decode back into
it, and reading it gives the document back, given room for its nesting. -/
theorem planText_reads_back (ms : List Module) (hms : ∀ m ∈ ms, m.ValidText)
    (hapart : ∀ m ∈ ms, ∀ b ∈ m.blocks, ∀ d ∈ b.tree, d.ValuesApart)
    (indent : Option Indent) (hind : ∀ ind ∈ indent, ind.Blank)
    (p : Plan) (hp : Plan.ofModules ms = .ok p) :
    (∀ w, p.wireFaults.head? = some w →
      planText ms indent = .error (PlanError.wire w).failure ∧
      ((w = .tooDeep ∧ ∃ j ∈ p.payloads, serializerDepthLimit < j.depth) ∨
        ∃ j ∈ p.payloads, ∃ k ∈ j.keys, ∃ run, k.firstSurrogateRun = some run ∧
          w = .nestedKey run)) ∧
    (p.wireFaults = [] ↔ ∀ j ∈ p.payloads,
      j.depth ≤ serializerDepthLimit ∧ ∀ k ∈ j.keys, k.firstSurrogateRun = none) ∧
    (p.wireFaults = [] → ∃ D, p.toJson = .ok D ∧
      ((∃ f, planText ms indent = .error f) ↔ D.HoldsSurrogate) ∧
      (∀ f, planText ms indent = .error f → ∃ run,
        (Json.write (Indent.style indent) D).firstSurrogateRun = some run ∧
        f = .of .planSerialization ("error handling built plan json from hcl: " ++ run.message)) ∧
      (∀ t, planText ms indent = .ok t → ∃ bytes, t.utf8 = .ok bytes ∧ decodeUtf8 bytes = .ok t ∧
        ∀ room, D.depth ≤ room → readJson t room = .ok D.toValue)) := by
  refine ⟨fun w hw => ?_, p.wireFaults_eq_nil_iff, fun hnil => ?_⟩
  · have hfault := (p.toJson_eq_error_iff w).2 hw
    exact ⟨planText_of_wireFault hp hfault indent,
      Plan.mem_wireFaults (List.mem_of_head? hw)⟩
  · obtain ⟨D, hD⟩ := (p.exists_toJson_iff).2 hnil
    exact ⟨D, hD, planText_of_toJson ms hms hapart indent hind p hp D hD⟩

/-- A provider whose region is text beyond ASCII. -/
def regionModule : Module :=
  ⟨"", "", [⟨"provider", "aws", "", [⟨"region", .str "eu-nörd-1", []⟩], [], none, false, none,
    "", ""⟩]⟩

theorem tab_indented_region_reads_back :
    ∃ p D, Plan.ofModules [regionModule] = .ok p ∧ p.toJson = .ok D ∧
      ∀ t, planText [regionModule] (some (.text "\t")) = .ok t →
        ∃ bytes, t.utf8 = .ok bytes ∧ decodeUtf8 bytes = .ok t ∧
          ∀ room, D.depth ≤ room → readJson t room = .ok D.toValue := by
  have hms : ∀ m ∈ [regionModule], m.ValidText := by
    intro m hm
    rw [List.mem_singleton.1 hm]
    refine ⟨Text.valid_ofString _, Text.valid_ofString _, fun b hb => ?_⟩
    rw [List.mem_singleton.1 hb]
    refine .mk ⟨Text.valid_ofString _, Text.valid_ofString _, Text.valid_ofString _,
      (fun a ha => ?_), (fun _ h => nomatch h), (fun _ h => nomatch h),
      Text.valid_ofString _, Text.valid_ofString _⟩ fun _ h => nomatch h
    rw [List.mem_singleton.1 ha]
    exact ⟨Text.valid_ofString _, .str (Text.valid_ofString _), fun _ h => nomatch h⟩
  have hapart : ∀ m ∈ [regionModule], ∀ b ∈ m.blocks, ∀ d ∈ b.tree, d.ValuesApart := by
    intro m hm b hb d hd
    rw [List.mem_singleton.1 hm] at hb
    rw [List.mem_singleton.1 hb, Block.tree_eq] at hd
    simp only [List.mem_cons, List.flatMap_nil, List.not_mem_nil, or_false] at hd
    subst hd
    intro vs hvs
    cases hvs
  have hind : ∀ ind ∈ some (Indent.text "\t"), ind.Blank := by
    intro ind hind
    cases hind
    decide
  obtain ⟨p, hp⟩ : ∃ p, Plan.ofModules [regionModule] = .ok p := ⟨_, rfl⟩
  have hnil : p.wireFaults = [] := by
    cases hp
    rfl
  obtain ⟨D, hD, -, -, hreads⟩ := (planText_reads_back _ hms hapart _ hind p hp).2.2 hnil
  exact ⟨p, D, hp, hD, hreads⟩

/-! ## A key that holds a surrogate inside a value -/

/-- A resource whose value `bad` is a map keyed by a lone high surrogate. -/
def surrogateKeyBlock : Block :=
  ⟨"resource", "aws_instance", "bad15",
    [⟨"ok", .int 1, []⟩, ⟨"bad", .map [(.str ⟨[0xD83D]⟩, .int 1)], []⟩], [],
    some [("ok", .int 1), ("bad", .map [(.str ⟨[0xD83D]⟩, .int 1)])], false, none, "", ""⟩

/-- The module of `surrogateKeyBlock` alone. -/
def surrogateKeyModule : Module := ⟨"", "", [surrogateKeyBlock]⟩

/-- The planned values of `surrogateKeyBlock`. -/
def surrogateKeyValues : List (Text × Json) :=
  [("ok", .int 1), ("bad", .obj [(⟨[0xD83D]⟩, .int 1)])]

theorem surrogateKeyBlock_plannedValuesWithin :
    surrogateKeyBlock.plannedValuesWithin blockCallRoom = .ok (some surrogateKeyValues) := by
  have hone : Numeral.exceedsDigitLimit 1 = false := by
    have hpos : Numeral.digitLimit ≠ 0 := by decide
    unfold Numeral.exceedsDigitLimit Numeral.firstTooLong
    generalize Numeral.digitLimit = L at hpos ⊢
    exact decide_eq_false (Nat.not_le.2 (Nat.one_lt_pow hpos (by decide)))
  have hfuse : Text.fuse ⟨[0xD83D]⟩ = ⟨[0xD83D]⟩ := by decide
  rw [show blockCallRoom = 989 + 1 from rfl, Block.plannedValuesWithin]
  simp [surrogateKeyBlock, surrogateKeyValues, marshalValues, marshalEntry, Value.toJson,
    depthLimit, Value.toJsonWithin_map_succ, keyText, skipsCount, AttributeKey.isName, pure,
    Except.pure, bind, Except.bind, hone, hfuse, Functor.map, Except.map, putEntry]

theorem ofModules_surrogateKey :
    Plan.ofModules [surrogateKeyModule] = .ok (Plan.build [surrogateKeyModule]) := by
  rw [Plan.ofModules_gated]
  have hres : resourceBlocks [surrogateKeyModule] = [surrogateKeyBlock] := rfl
  rw [hres, List.mapM_cons, surrogateKeyBlock_plannedValuesWithin]
  rfl

theorem payload_surrogateKeyValues :
    payload surrogateKeyValues = .error (.nestedKey ⟨0, 1, 0xD83D⟩) := by
  rw [← outcome_eq_error_iff, outcome_payload, failFirst_eq_error_iff]
  rfl

theorem toJson_surrogateKey :
    (Plan.build [surrogateKeyModule]).toJson = .error (.nestedKey ⟨0, 1, 0xD83D⟩) := by
  have hvalues : surrogateKeyBlock.okValues = some surrogateKeyValues := by
    rw [Block.okValues, Block.plannedValues_of_within surrogateKeyBlock_plannedValuesWithin]
  have hroot : (Plan.build [surrogateKeyModule]).rootResources =
      [PlannedResource.ofBlock surrogateKeyBlock (some surrogateKeyValues)] := by
    rw [Plan.build_rootResources, ← hvalues]
    rfl
  unfold Plan.toJson
  rw [hroot]
  simp [PlannedResource.toJson, PlannedResource.ofBlock, optionalPayload,
    payload_surrogateKeyValues, bind, Except.bind]

theorem WireError.message_nestedKey_head (run : SurrogateRun) :
    (WireError.nestedKey run).message.toList.head? = some 'E' := by
  show ("Error calling function `_omit_empty_resources`: UnicodeEncodeError: " ++
    run.message).toList.head? = some 'E'
  rw [String.toList_append, List.head?_append]
  simp

theorem SurrogateRun.message_head (r : SurrogateRun) : r.message.toList.head? = some '\'' := by
  unfold SurrogateRun.message
  split <;> simp [String.toList_append] <;> exact Or.inl (by decide)

/-- A module whose plan is built but has no document, since a key inside a value holds a
surrogate: its plan text fails with the failure of the key check, which is not the failure of
any run of surrogates in written text. -/
theorem surrogate_key_refuses_document :
    (∃ p, Plan.ofModules [surrogateKeyModule] = .ok p ∧ ∀ D, p.toJson ≠ .ok D) ∧
    planText [surrogateKeyModule] none =
      .error (PlanError.wire (.nestedKey ⟨0, 1, 0xD83D⟩)).failure ∧
    ∀ run : SurrogateRun, planText [surrogateKeyModule] none ≠ .error
      (.of .planSerialization ("error handling built plan json from hcl: " ++ run.message)) := by
  have hfail : planText [surrogateKeyModule] none =
      .error (PlanError.wire (.nestedKey ⟨0, 1, 0xD83D⟩)).failure := by
    simp [planText, Plan.render, ofModules_surrogateKey, toJson_surrogateKey, Except.mapError, bind,
      Except.bind]
  refine ⟨⟨_, ofModules_surrogateKey, fun D hD => ?_⟩, hfail, fun run h => ?_⟩
  · rw [toJson_surrogateKey] at hD
    cases hD
  · rw [hfail] at h
    obtain ⟨-, hmsg, -⟩ := Failure.mk.inj (Except.error.inj h)
    -- the key check's message opens with the name of the function, a run's with a quote
    have hstr : (WireError.nestedKey ⟨0, 1, 0xD83D⟩).message = run.message :=
      Text.ofString_inj.1 (Text.append_cancel_left hmsg)
    have hhead := congrArg (fun s : String => s.toList.head?) hstr
    simp only [WireError.message_nestedKey_head, SurrogateRun.message_head] at hhead
    exact absurd hhead (by decide)

end BlockPlan
