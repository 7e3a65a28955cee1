import BlockPlan.Proofs.CodePoints
import BlockPlan.Proofs.IndentedText

/-!
# The bytes of plan text

`Plan.render` writes the document of a plan under a layout and refuses text that holds a
surrogate; the bytes of plan text are its UTF-8 encoding (`Text.utf8`), which then succeeds
(`Text.utf8_of_firstSurrogateRun`). An indent of blanks (`Indent.Blank`: a count of spaces, or
text made of spaces, tabs, line feeds and carriage returns) adds blanks outside string literals
and nothing else, so for modules whose texts are valid (`indented_bytes_drop_to_compact`):

* writing with such an indent succeeds exactly when writing on one line does, a surrogate
  standing in both texts or in neither;
* deleting from the indented bytes the blanks that stand outside string literals gives the bytes
  written on one line.
-/

namespace BlockPlan

/-! ## Encoding text without surrogates -/

namespace Text

theorem surrogateRunFrom_eq_none_iff (i : Nat) (cs : List Nat) :
    surrogateRunFrom i cs = none ↔ ∀ c ∈ cs, isSurrogate c = false := by
  induction cs generalizing i with
  | nil => simp [surrogateRunFrom]
  | cons c cs ih =>
    rw [surrogateRunFrom]
    split
    · rename_i hc
      simp [hc]
    · rename_i hc
      simp [ih, hc]

theorem firstSurrogateRun_eq_none_iff (t : Text) :
    t.firstSurrogateRun = none ↔ ∀ c ∈ t.points, isSurrogate c = false :=
  surrogateRunFrom_eq_none_iff 0 t.points

theorem utf8_of_firstSurrogateRun (t : Text) (h : t.firstSurrogateRun = none) :
    t.utf8 = .ok (t.points.flatMap utf8Point) := by
  unfold utf8
  rw [h]

end Text

/-! ## Plan text -/

/-- Plan text is the document of the plan of the modules, written under the layout, when it
holds no surrogate. -/
theorem Plan.render_eq_ok_iff (ms : List Module) (indent : Option Indent) (t : Text) :
    Plan.render ms indent = .ok t ↔
      ∃ p j, Plan.ofModules ms = .ok p ∧ p.toJson = .ok j ∧
        t = Json.write (Indent.style indent) j ∧ t.firstSurrogateRun = none := by
  unfold Plan.render
  cases hp : Plan.ofModules ms with
  | error e => simp [Except.mapError, bind, Except.bind]
  | ok p =>
    cases hj : p.toJson with
    | error e => simp [hj, Except.mapError, bind, Except.bind]
    | ok j =>
      cases hs : (Json.write (Indent.style indent) j).firstSurrogateRun with
      | some run =>
        simp only [bind, Except.bind, Except.mapError, hj, hs, throw, throwThe,
          MonadExceptOf.throw, reduceCtorEq, Except.ok.injEq, exists_and_left, exists_eq_left',
          false_iff, not_and]
        rintro rfl
        rw [hs]
        exact Option.some_ne_none run
      | none =>
        simp only [bind, Except.bind, Except.mapError, hj, hs, pure, Except.pure, Except.ok.injEq,
          exists_and_left, exists_eq_left']
        constructor
        · rintro rfl
          exact ⟨rfl, hs⟩
        · rintro ⟨rfl, -⟩
          rfl

/-- An indent of blanks: a count of spaces (none when the count is not positive), or text made of
spaces, tabs, line feeds and carriage returns. -/
def Indent.Blank : Indent → Prop
  | .spaces _ => True
  | .text t => ∀ c ∈ t.points, JsonRead.isBlank c = true

instance : DecidablePred Indent.Blank
  | .spaces _ => isTrue trivial
  | .text t => inferInstanceAs (Decidable (∀ c ∈ t.points, JsonRead.isBlank c = true))

theorem Indent.Blank.style {ind : Indent} (h : ind.Blank) :
    ∃ u, Indent.style (some ind) = Json.Style.indented u false ∧
      ∀ c ∈ u.points, JsonRead.isBlank c = true := by
  cases ind with
  | spaces n =>
    refine ⟨_, rfl, fun c hc => ?_⟩
    obtain ⟨l, hl, hcl⟩ := List.mem_flatten.1 hc
    have hspace : (Text.ofString " ").points = [0x20] := rfl
    rw [List.eq_of_mem_replicate hl, hspace, List.mem_singleton] at hcl
    subst hcl
    rfl
  | text t => exact ⟨t, rfl, h⟩

theorem lt_of_isBlank (c : Nat) (h : JsonRead.isBlank c = true) : c < 0x80 := by
  simp only [JsonRead.isBlank, Bool.or_eq_true, decide_eq_true_eq] at h
  omega

theorem Json.Style.valid_indented (u : Text) (hu : ∀ c ∈ u.points, JsonRead.isBlank c = true) :
    (Json.Style.indented u false).Valid :=
  ⟨Text.valid_ofString _, Text.valid_ofString _, fun u' hu' c hc => by
    cases hu'
    have := lt_of_isBlank c (hu c hc)
    omega⟩

/-! ## Indented and compact text -/

namespace Json

/-- A document written under an indent of blanks holds a surrogate exactly when it does written
on one line: deleting blanks deletes no surrogate. -/
theorem firstSurrogateRun_indented_eq_none_iff (u : Text)
    (hu : ∀ c ∈ u.points, JsonRead.isBlank c = true) (j : Json) :
    (write (Style.indented u false) j).firstSurrogateRun = none ↔
      (write Style.compact j).firstSurrogateRun = none := by
  rw [Text.firstSurrogateRun_eq_none_iff, Text.firstSurrogateRun_eq_none_iff,
    ← dropBlanks_write u hu j]
  constructor
  · intro h c hc
    exact h c ((dropBlanks_sublist id _ _).subset hc)
  · intro h c hc
    cases hb : JsonRead.isBlank c with
    | true =>
      have := lt_of_isBlank c hb
      simp only [isSurrogate, Bool.and_eq_false_iff, decide_eq_false_iff_not]
      omega
    | false => exact h c (mem_dropBlanks id c _ _ hc hb)

/-- Deleting from the bytes of a document written under an indent of blanks the blanks outside
string literals gives the bytes of the document written on one line. -/
theorem dropBlanks_indented_bytes (u : Text) (hu : ∀ c ∈ u.points, JsonRead.isBlank c = true)
    (j : Json) (hvalid : (write (Style.indented u false) j).Valid) :
    dropBlanks UInt8.toNat .outside ((write (Style.indented u false) j).points.flatMap utf8Point) =
      (write Style.compact j).points.flatMap utf8Point := by
  rw [dropBlanks_utf8 _ hvalid, dropBlanks_write u hu j]

end Json

/-- Plan text under an indent of blanks is plan text on one line with blanks added outside string
literals: for modules with valid text, one is written exactly when the other is, and deleting
those blanks from the indented bytes gives the bytes on one line. -/
theorem indented_bytes_drop_to_compact (ms : List Module) (hms : ∀ m ∈ ms, m.ValidText)
    (ind : Indent) (hind : ind.Blank) :
    ((∃ t, Plan.render ms (some ind) = .ok t) ↔ ∃ t, Plan.render ms none = .ok t) ∧
    ∀ t t', Plan.render ms (some ind) = .ok t → Plan.render ms none = .ok t' →
      ∃ bytes bytes', t.utf8 = .ok bytes ∧ t'.utf8 = .ok bytes' ∧
        Json.dropBlanks UInt8.toNat .outside bytes = bytes' := by
  obtain ⟨u, hstyle, hu⟩ := hind.style
  have hsame := Json.firstSurrogateRun_indented_eq_none_iff u hu
  refine ⟨⟨?_, ?_⟩, ?_⟩
  · rintro ⟨t, ht⟩
    obtain ⟨p, j, hp, hj, rfl, hs⟩ := (Plan.render_eq_ok_iff _ _ _).1 ht
    rw [hstyle] at hs
    exact ⟨_, (Plan.render_eq_ok_iff _ _ _).2 ⟨p, j, hp, hj, rfl, (hsame j).1 hs⟩⟩
  · rintro ⟨t, ht⟩
    obtain ⟨p, j, hp, hj, rfl, hs⟩ := (Plan.render_eq_ok_iff _ _ _).1 ht
    refine ⟨_, (Plan.render_eq_ok_iff _ _ _).2 ⟨p, j, hp, hj, rfl, ?_⟩⟩
    rw [hstyle]
    exact (hsame j).2 hs
  · intro t t' ht ht'
    obtain ⟨p, j, hp, hj, rfl, hs⟩ := (Plan.render_eq_ok_iff _ _ _).1 ht
    obtain ⟨p', j', hp', hj', rfl, hs'⟩ := (Plan.render_eq_ok_iff _ _ _).1 ht'
    rw [hp] at hp'
    cases hp'
    rw [hj] at hj'
    cases hj'
    have hdoc := (Plan.validText_ofModules ms hms p hp).toJson hj
    refine ⟨_, _, Text.utf8_of_firstSurrogateRun _ hs, Text.utf8_of_firstSurrogateRun _ hs', ?_⟩
    rw [hstyle]
    exact Json.dropBlanks_indented_bytes u hu j
      (Json.valid_write (Json.Style.valid_indented u hu) j hdoc)

/-- A bucket whose tags are text with a blank inside. -/
def spacedTagModule : Module :=
  ⟨"", "", [⟨"resource", "aws_s3_bucket", "logs", [], [], some [("tags", .str "a b")], false, none,
    "", ""⟩]⟩

theorem tab_indent_drops_to_compact :
    (∀ m ∈ [spacedTagModule], m.ValidText) ∧ (Indent.text "\t").Blank ∧
      (((∃ t, Plan.render [spacedTagModule] (some (.text "\t")) = .ok t) ↔
          ∃ t, Plan.render [spacedTagModule] none = .ok t) ∧
        ∀ t t', Plan.render [spacedTagModule] (some (.text "\t")) = .ok t →
          Plan.render [spacedTagModule] none = .ok t' →
          ∃ bytes bytes', t.utf8 = .ok bytes ∧ t'.utf8 = .ok bytes' ∧
            Json.dropBlanks UInt8.toNat .outside bytes = bytes') := by
  have hms : ∀ m ∈ [spacedTagModule], m.ValidText := by
    intro m hm
    rw [List.mem_singleton.1 hm]
    refine ⟨Text.valid_ofString _, Text.valid_ofString _, fun b hb => ?_⟩
    rw [List.mem_singleton.1 hb]
    refine .mk ⟨Text.valid_ofString _, Text.valid_ofString _, Text.valid_ofString _,
      (fun _ h => nomatch h), (fun vs hvs e he => ?_), (fun _ h => nomatch h),
      Text.valid_ofString _, Text.valid_ofString _⟩ fun _ h => nomatch h
    cases hvs
    rw [List.mem_singleton.1 he]
    exact ⟨Text.valid_ofString _, .str (Text.valid_ofString _)⟩
  have hind : (Indent.text "\t").Blank := by decide
  exact ⟨hms, hind, indented_bytes_drop_to_compact _ hms _ hind⟩

end BlockPlan
