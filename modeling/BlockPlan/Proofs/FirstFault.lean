import BlockPlan.Proofs.Assembly

/-!
# The failure a conversion reports

The values of a resource block are encoded in one order: the block's own values in key order,
the `count` of a resource or module left out, then the values of its children in declaration
order, each child in the same order (`Block.encodedValues`). The calls that encode them go one
level deeper for each level of children, and a child met with no room left for them fails where
it stands in that order: finding planned values runs the steps `Block.marshalSteps`, each the
encoding of one value or, past the room, `MarshalStep.nestedTooDeep`. Over modules, the resource
blocks come in module order and then in block order (`marshalSteps`); values of providers and of
other top-level blocks are never encoded.

Finding the planned values of a block has the outcome of running its steps in order
(`Block.plannedValuesWithin_outcome`), so building a plan fails with the failure of the first
step that fails (`ofModules_eq_error_iff`). A step past the room is met exactly when the tree of
some resource nests deeper than `blockCallRoom` levels, and otherwise the steps are the values
(`marshalSteps_of_nestsWithin`). Converting the modules then reports (`convertModules_faults`):

* a value nested too deep, or a block nested past the room of the calls, as the conversion's own
  failure, whatever follows;
* any other value without a JSON form as a failure to write the plan that names its key, the kind
  of its block and why it has no form;
* when every step succeeds, only a failure to write the document.
-/

namespace BlockPlan

/-- Whether an entry of a block of this kind is left out of its planned values. -/
def skipsEntry (kind key : Text) : Bool := skipsCount kind && key == "count"

/-- The values of a block in the order they are encoded, each with its key and the kind of the
block it belongs to: its own values, the `count` of a resource or module left out, then those of
its children in order. -/
def Block.encodedValues (b : Block) : List (Text × Text × Value) :=
  ((b.values.getD []).filter fun e => !skipsEntry b.kind e.1).map (fun e => (e.1, b.kind, e.2)) ++
    b.children.attach.flatMap fun ⟨c, _⟩ => c.encodedValues
termination_by sizeOf b
decreasing_by
  have := List.sizeOf_lt_of_mem ‹c ∈ b.children›
  have := Block.sizeOf_children_lt b
  omega

/-- The values of the resource blocks of the modules in the order they are encoded. -/
def encodedValues (ms : List Module) : List (Text × Text × Value) :=
  (resourceBlocks ms).flatMap Block.encodedValues

theorem Block.encodedValues_eq (b : Block) :
    b.encodedValues =
      ((b.values.getD []).filter fun e => !skipsEntry b.kind e.1).map (fun e => (e.1, b.kind, e.2)) ++
        b.children.flatMap Block.encodedValues := by
  rw [Block.encodedValues, List.flatMap_subtype (fun _ _ => rfl), List.unattach_attach]

/-- A step in finding planned values: encoding the value under a key of a block of some kind, or
meeting a child block with no room left for the calls. -/
inductive MarshalStep where
  | encode (key kind : Text) (v : Value)
  | nestedTooDeep

/-- What a step gives: the JSON form of its value, or the failure of a block nested too deep. -/
def MarshalStep.run : MarshalStep → Except MarshalError Json
  | .encode k t v => marshalEntry t k v
  | .nestedTooDeep => .error .blocksTooDeep

/-- The step that encodes a value with its key and the kind of its block. -/
def MarshalStep.ofValue (x : Text × Text × Value) : MarshalStep := .encode x.1 x.2.1 x.2.2

/-- The steps of finding the planned values of a block by calls that may go `room` levels deep:
its own values in key order, the `count` of a resource or module left out, then the steps of its
children in order, one level deeper; a block met with no room left is one step. -/
def Block.marshalSteps : Nat → Block → List MarshalStep
  | 0, _ => [.nestedTooDeep]
  | room + 1, b =>
    ((b.values.getD []).filter fun e => !skipsEntry b.kind e.1).map
        (fun e => .encode e.1 b.kind e.2) ++
      b.children.flatMap (marshalSteps room)

/-- The steps of finding the planned values of the resource blocks of the modules. -/
def marshalSteps (ms : List Module) : List MarshalStep :=
  (resourceBlocks ms).flatMap (Block.marshalSteps blockCallRoom)

/-! ## One step -/

theorem MarshalStep.run_encode_eq_ok_iff (k t : Text) (v : Value) (j : Json) :
    (MarshalStep.encode k t v).run = .ok j ↔ v.toJson = .ok j := by
  show marshalEntry t k v = _ ↔ _
  unfold marshalEntry
  cases v.toJson with
  | ok j' => simp
  | error e => cases e <;> simp

theorem MarshalStep.run_encode_eq_error_iff (k t : Text) (v : Value) (err : MarshalError) :
    (MarshalStep.encode k t v).run = .error err ↔
      ∃ e, v.toJson = .error e ∧ err = if e = .tooDeep then .tooDeep else .attribute k t e := by
  show marshalEntry t k v = _ ↔ _
  unfold marshalEntry
  cases v.toJson with
  | ok j => simp
  | error e => cases e <;> simp [AttributeKey.display, eq_comm]

/-! ## The steps of a block -/

theorem Block.nestedTooDeep_mem_marshalSteps (room : Nat) (b : Block) :
    .nestedTooDeep ∈ b.marshalSteps room ↔ b.nestsWithin room = false := by
  induction room generalizing b with
  | zero => simp [Block.marshalSteps, Block.nestsWithin]
  | succ room ih => simp [Block.marshalSteps, Block.nestsWithin, ih]

theorem Block.marshalSteps_of_nestsWithin (room : Nat) (b : Block)
    (h : b.nestsWithin room = true) :
    b.marshalSteps room = b.encodedValues.map MarshalStep.ofValue := by
  induction room generalizing b with
  | zero => simp [Block.nestsWithin] at h
  | succ room ih =>
    rw [Block.nestsWithin, List.all_eq_true] at h
    rw [Block.marshalSteps, Block.encodedValues_eq, List.map_append, List.map_map, List.map_flatMap]
    congr 1
    exact List.flatMap_congr fun c hc => ih c (h c hc)

theorem outcome_bind_const {ε α β : Type} (x : Except ε α) (f : α → Except ε β) (c : Except ε Unit)
    (hf : ∀ a, outcome (f a) = c) : outcome (x >>= f) = outcome x >>= fun _ => c := by
  cases x with
  | error e => rfl
  | ok a => exact hf a

theorem marshalValues_outcome (kind : Text) (vals : List (Text × Value)) :
    outcome (marshalValues kind vals) =
      outcome (((vals.filter fun e => !skipsEntry kind e.1).map
        fun e => MarshalStep.encode e.1 kind e.2).mapM MarshalStep.run) := by
  unfold marshalValues
  rw [List.mapM_map]
  apply outcome_mapM_congr
  intro e _
  rw [outcome_map]
  rfl

/-- Finding the planned values of a block within a room has the outcome of running its steps in
order. -/
theorem Block.plannedValuesWithin_outcome (room : Nat) (b : Block) :
    outcome (b.plannedValuesWithin room) =
      outcome ((b.marshalSteps room).mapM MarshalStep.run) := by
  induction room generalizing b with
  | zero => rfl
  | succ room ih =>
    rw [Block.plannedValuesWithin, Block.marshalSteps, List.mapM_append]
    have hown : outcome (b.values.mapM (marshalValues b.kind)) =
        outcome ((((b.values.getD []).filter fun e => !skipsEntry b.kind e.1).map
          fun e => MarshalStep.encode e.1 b.kind e.2).mapM MarshalStep.run) := by
      cases b.values with
      | none => rfl
      | some vals =>
        rw [Option.getD_some, ← marshalValues_outcome, Option.mapM_some, outcome_map]
    have hkids : outcome ((b.children.flatMap (Block.marshalSteps room)).mapM MarshalStep.run) =
        outcome (b.children.mapM fun c => (c.kind, ·) <$> c.plannedValuesWithin room) := by
      rw [outcome_mapM_flatMap]
      apply outcome_mapM_congr
      intro c _
      rw [outcome_map, ih c]
    rw [outcome_bind_const _ _
        (outcome ((b.children.flatMap (Block.marshalSteps room)).mapM MarshalStep.run)) ?rest,
      outcome_bind_const _ _
        (outcome ((b.children.flatMap (Block.marshalSteps room)).mapM MarshalStep.run)) ?kids,
      hown]
    case rest =>
      intro vs
      split
      · rename_i hempty
        rw [List.isEmpty_iff.1 hempty]
        rfl
      · rw [hkids, outcome_bind_const _ _ (.ok ()) (fun _ => rfl)]
        cases (b.children.mapM fun c => (c.kind, ·) <$> c.plannedValuesWithin room) <;> rfl
    case kids =>
      intro a
      rw [outcome_bind_const _ _ (.ok ()) (fun _ => rfl)]
      cases ((b.children.flatMap (Block.marshalSteps room)).mapM MarshalStep.run) <;> rfl

/-! ## Modules -/

theorem ofModules_outcome (ms : List Module) :
    outcome (Plan.ofModules ms) = outcome ((marshalSteps ms).mapM MarshalStep.run) := by
  rw [Plan.ofModules_gated, outcome_map, outcome_outcome, marshalSteps, outcome_mapM_flatMap]
  exact outcome_mapM_congr _ _ _ fun b _ => Block.plannedValuesWithin_outcome blockCallRoom b

/-- Building a plan fails with the failure of the first step that fails, after steps that all
succeed. -/
theorem ofModules_eq_error_iff (ms : List Module) (err : MarshalError) :
    Plan.ofModules ms = .error err ↔
      ∃ pre s post, marshalSteps ms = pre ++ s :: post ∧
        (∀ x ∈ pre, ∃ j, x.run = .ok j) ∧ s.run = .error err := by
  rw [← outcome_eq_error_iff, ofModules_outcome, outcome_eq_error_iff, mapM_eq_error_iff]

theorem ofModules_ok_of_steps (ms : List Module)
    (h : ∀ x ∈ marshalSteps ms, ∃ j, x.run = .ok j) : ∃ p, Plan.ofModules ms = .ok p := by
  cases hp : Plan.ofModules ms with
  | ok p => exact ⟨p, rfl⟩
  | error err =>
    obtain ⟨pre, s, post, hsplit, -, hs⟩ := (ofModules_eq_error_iff ms err).1 hp
    have hmem : s ∈ marshalSteps ms := by
      rw [hsplit]
      exact List.mem_append_right pre List.mem_cons_self
    obtain ⟨j, hj⟩ := h s hmem
    rw [hj] at hs
    cases hs

theorem nestedTooDeep_mem_marshalSteps (ms : List Module) :
    .nestedTooDeep ∈ marshalSteps ms ↔
      ∃ b ∈ resourceBlocks ms, b.nestsWithin blockCallRoom = false := by
  simp only [marshalSteps, List.mem_flatMap, Block.nestedTooDeep_mem_marshalSteps]

theorem marshalSteps_of_nestsWithin (ms : List Module)
    (h : ∀ b ∈ resourceBlocks ms, b.nestsWithin blockCallRoom = true) :
    marshalSteps ms = (encodedValues ms).map MarshalStep.ofValue := by
  rw [marshalSteps, encodedValues, List.map_flatMap]
  exact List.flatMap_congr fun b hb => Block.marshalSteps_of_nestsWithin _ b (h b hb)

/-! ## Rendering and converting -/

theorem render_of_ofModules_error (ms : List Module) (indent : Option Indent) (err : MarshalError)
    (h : Plan.ofModules ms = .error err) : Plan.render ms indent = .error (.marshal err) := by
  unfold Plan.render
  rw [h]
  rfl

/-- A plan that is built fails only in being written. -/
theorem render_error_of_ofModules_ok (ms : List Module) (indent : Option Indent) (p : Plan)
    (pe : PlanError) (h : Plan.ofModules ms = .ok p) (hr : Plan.render ms indent = .error pe) :
    ∃ w, pe = .wire w := by
  unfold Plan.render at hr
  rw [h] at hr
  cases hj : p.toJson with
  | error w =>
    simp only [mapError_ok, hj, mapError_error, bind, Except.bind] at hr
    exact ⟨w, (Except.error.inj hr).symm⟩
  | ok j =>
    simp only [mapError_ok, hj, bind, Except.bind] at hr
    split at hr
    · exact ⟨_, (Except.error.inj hr).symm⟩
    · cases hr

/-- How converting reports a failure of rendering: containers nested too deep as a failed
conversion, anything else unchanged. -/
theorem convertModules_of_render_error (ms : List Module) (indent : Option Indent)
    (pe : PlanError) (h : Plan.render ms indent = .error pe) :
    convertModules ms indent = .error
      (if pe.failure.kind == .recursion then
        .of .conversion (Text.ofString "Conversion failed: " ++ pe.failure.message)
      else pe.failure) := by
  unfold convertModules planText
  rw [h]
  rfl

theorem render_error_of_convertModules_error (ms : List Module) (indent : Option Indent)
    (f : Failure) (h : convertModules ms indent = .error f) :
    ∃ pe, Plan.render ms indent = .error pe ∧
      f = if pe.failure.kind == .recursion then
        .of .conversion (Text.ofString "Conversion failed: " ++ pe.failure.message)
      else pe.failure := by
  cases hr : Plan.render ms indent with
  | error pe =>
    rw [convertModules_of_render_error ms indent pe hr] at h
    exact ⟨pe, rfl, (Except.error.inj h).symm⟩
  | ok text =>
    unfold convertModules planText at h
    rw [hr] at h
    cases h

/-! ## Messages -/

theorem head_append (s t : String) (c : Nat) (h : (s.toList.map Char.toNat)[0]? = some c) :
    ((s ++ t).toList.map Char.toNat)[0]? = some c := by
  have hlen : 0 < (s.toList.map Char.toNat).length := by
    rcases hs : s.toList.map Char.toNat with _ | ⟨d, ds⟩
    · rw [hs] at h
      cases h
    · simp
  rw [String.toList_append, List.map_append, List.getElem?_append_left hlen, h]

/-- The message of a failure to write the document goes on, after what every failure to write a
plan starts with, with `Error` or with a quote. -/
theorem wire_message_head (w : WireError) :
    (w.message.toList.map Char.toNat)[0]? = some 0x45 ∨
      (w.message.toList.map Char.toNat)[0]? = some 0x27 := by
  cases w with
  | nestedKey run =>
    left
    unfold WireError.message
    apply head_append
    decide
  | tooDeep =>
    left
    unfold WireError.message
    apply head_append
    decide
  | surrogates run =>
    right
    show ((SurrogateRun.message run).toList.map Char.toNat)[0]? = some 0x27
    unfold SurrogateRun.message
    split <;>
    · repeat apply head_append
      decide

/-- A failure to write the document never reads as a value that cannot be encoded: after the
prefix they share, the one goes on with `Error` or a quote, the other with `cannot`. -/
theorem wire_failure_ne_attribute (w : WireError) (k t : Text) (e : EncodeError) :
    (PlanError.wire w).failure ≠ (PlanError.marshal (.attribute k t e)).failure := by
  intro h
  have hat := congrArg (fun f : Failure => f.message.points[41]?) h
  have hwire : ((PlanError.wire w).failure.message.points)[41]? =
      (w.message.toList.map Char.toNat)[0]? := by
    show ((Text.ofString "error handling built plan json from hcl: ").points ++
      (Text.ofString w.message).points)[41]? = _
    rw [List.getElem?_append_right (by decide)]
    rfl
  have hattr : ((PlanError.marshal (.attribute k t e)).failure.message.points)[41]? = some 0x63 := by
    show ((Text.ofString "error handling built plan json from hcl: ").points ++
      (Text.ofString "cannot encode attribute '" ++ k ++ "' of " ++ t ++ " block: " ++
        e.message).points)[41]? = _
    rw [List.getElem?_append_right (by decide)]
    rfl
  rw [hwire, hattr] at hat
  rcases wire_message_head w with hw | hw <;> rw [hw] at hat <;> cases hat

/-! ## What converting reports -/

/-- **The failure a conversion reports.** Take the steps of finding the planned values of the
resource blocks in order. When the first step that fails encodes a value `v`, under key `k` of a
block of kind `t`, that fails with `e`, converting fails: with the conversion's own failure when
`e` is containers nested too deep, whatever follows; otherwise with a failure to write the plan
that names `k`, `t` and `e`. When it is a block nested past the room of the calls, converting
fails with the conversion's own failure too. Such a step is met exactly when the tree of some
resource block nests deeper than that room; otherwise the steps encode the values in their
order. When every step succeeds, converting fails only in writing the document, and such a
failure never reads as a value that cannot be encoded. -/
theorem convertModules_faults (ms : List Module) (indent : Option Indent) :
    (∀ pre k t v post e, marshalSteps ms = pre ++ .encode k t v :: post →
      (∀ x ∈ pre, ∃ j, x.run = .ok j) → v.toJson = .error e →
      convertModules ms indent = .error
        (if e = .tooDeep then
          .of .conversion (Text.ofString "Conversion failed: " ++
            Text.ofString "maximum recursion depth exceeded while encoding a JSON object")
        else
          .of .planSerialization (Text.ofString "error handling built plan json from hcl: " ++
            (Text.ofString "cannot encode attribute '" ++ k ++ "' of " ++ t ++ " block: " ++
              e.message)))) ∧
    (∀ pre post, marshalSteps ms = pre ++ .nestedTooDeep :: post →
      (∀ x ∈ pre, ∃ j, x.run = .ok j) →
      convertModules ms indent = .error (.of .conversion (Text.ofString "Conversion failed: " ++
        Text.ofString "maximum recursion depth exceeded"))) ∧
    (.nestedTooDeep ∈ marshalSteps ms ↔
      ∃ b ∈ resourceBlocks ms, b.nestsWithin blockCallRoom = false) ∧
    ((∀ b ∈ resourceBlocks ms, b.nestsWithin blockCallRoom = true) →
      marshalSteps ms = (encodedValues ms).map MarshalStep.ofValue) ∧
    ((∀ x ∈ marshalSteps ms, ∃ j, x.run = .ok j) →
      ∀ f, convertModules ms indent = .error f →
        ∃ w, Plan.render ms indent = .error (.wire w) ∧ f = (PlanError.wire w).failure) ∧
    (∀ w k t e, (PlanError.wire w).failure ≠ (PlanError.marshal (.attribute k t e)).failure) := by
  refine ⟨?first, ?deep, nestedTooDeep_mem_marshalSteps ms, marshalSteps_of_nestsWithin ms, ?clean,
    wire_failure_ne_attribute⟩
  case first =>
    intro pre k t v post e hsplit hpre he
    have hbuild : Plan.ofModules ms = .error (if e = .tooDeep then .tooDeep else .attribute k t e) :=
      (ofModules_eq_error_iff ms _).2
        ⟨pre, _, post, hsplit, hpre, (MarshalStep.run_encode_eq_error_iff k t v _).2 ⟨e, he, rfl⟩⟩
    rw [convertModules_of_render_error ms indent _ (render_of_ofModules_error ms indent _ hbuild)]
    by_cases hdeep : e = .tooDeep
    · subst hdeep
      rfl
    · simp only [hdeep, if_false]
      rfl
  case deep =>
    intro pre post hsplit hpre
    have hbuild : Plan.ofModules ms = .error .blocksTooDeep :=
      (ofModules_eq_error_iff ms _).2 ⟨pre, _, post, hsplit, hpre, rfl⟩
    rw [convertModules_of_render_error ms indent _ (render_of_ofModules_error ms indent _ hbuild)]
    rfl
  case clean =>
    intro hall f hf
    obtain ⟨p, hp⟩ := ofModules_ok_of_steps ms hall
    obtain ⟨pe, hr, rfl⟩ := render_error_of_convertModules_error ms indent f hf
    obtain ⟨w, rfl⟩ := render_error_of_ofModules_ok ms indent p pe hp hr
    exact ⟨w, hr, rfl⟩

/-! ## Nesting that fails the conversion -/

/-- A value wrapped in `n` one-element lists. -/
def Value.nestedList : Nat → Value → Value
  | 0, v => v
  | n + 1, v => .list [nestedList n v]

/-- A value wrapped in more lists than the fuel allows has no JSON form within it. -/
theorem toJsonWithin_nestedList (lenient : Bool) (leaf : Value) :
    ∀ fuel n, fuel < n → (Value.nestedList n leaf).toJsonWithin lenient fuel = .error .tooDeep := by
  intro fuel
  induction fuel with
  | zero =>
    intro n hn
    obtain ⟨m, rfl⟩ : ∃ m, n = m + 1 := ⟨n - 1, by omega⟩
    rw [Value.nestedList, Value.toJsonWithin_list_zero]
  | succ fuel ih =>
    intro n hn
    obtain ⟨m, rfl⟩ : ∃ m, n = m + 1 := ⟨n - 1, by omega⟩
    rw [Value.nestedList, Value.toJsonWithin_list_succ, List.mapM_cons, ih m (by omega)]
    rfl

/-- A bucket whose first value is nested a hundred thousand lists deep and whose second is an
object without a JSON form. -/
def deepBucket : Block :=
  ⟨"resource", "aws_s3_bucket", "logs", [], [],
    some [("deep", Value.nestedList 100000 (.int 1)), ("bad", .object "object")],
    false, none, "", ""⟩

/-- A block of a kind with `n` levels of blocks of that kind below it, one inside the other, and
no values. -/
def Block.chain (kind : Text) : Nat → Block
  | 0 => ⟨kind, "", "", [], [], none, false, none, "", ""⟩
  | n + 1 => ⟨kind, "", "", [], [Block.chain kind n], none, false, none, "", ""⟩

theorem Block.chain_encodedValues (kind : Text) (n : Nat) : (Block.chain kind n).encodedValues = [] := by
  induction n with
  | zero => rw [Block.encodedValues_eq]; rfl
  | succ n ih => rw [Block.encodedValues_eq, Block.chain, List.flatMap_singleton, ih]; rfl

theorem Block.chain_marshalSteps (kind : Text) (room n : Nat) :
    (Block.chain kind n).marshalSteps room = if n < room then [] else [.nestedTooDeep] := by
  induction room generalizing n with
  | zero => rfl
  | succ room ih =>
    cases n with
    | zero => rfl
    | succ n =>
      rw [Block.chain, Block.marshalSteps, List.flatMap_singleton, ih n]
      simp

/-- Nesting fails the conversion on its own. A value nested too deep hides every later value
without a JSON form: the conversion fails as such and names no attribute, although the object
after it cannot be encoded. A resource whose blocks nest a thousand levels deep has no value to
encode, yet the conversion fails, before anything is written, because the calls run out of room. -/
theorem deep_nesting_fails_conversion :
    (Value.object "object").toJson = .error (.unsupported "object") ∧
      convertModules [⟨"", "", [deepBucket]⟩] none = .error (.of .conversion
        (Text.ofString "Conversion failed: " ++
          Text.ofString "maximum recursion depth exceeded while encoding a JSON object")) ∧
      encodedValues [⟨"", "", [Block.chain "resource" 1000]⟩] = [] ∧
      convertModules [⟨"", "", [Block.chain "resource" 1000]⟩] none = .error (.of .conversion
        (Text.ofString "Conversion failed: " ++ Text.ofString "maximum recursion depth exceeded")) := by
  have hroom : blockCallRoom = 989 + 1 := rfl
  refine ⟨Value.toJsonWithin_object _ _ _, ?_, ?_, ?_⟩
  · have hsplit : marshalSteps [⟨"", "", [deepBucket]⟩] =
        [.encode "deep" "resource" (Value.nestedList 100000 (.int 1)),
          .encode "bad" "resource" (.object "object")] := by
      have hres : resourceBlocks [⟨"", "", [deepBucket]⟩] = [deepBucket] := rfl
      rw [marshalSteps, hres, List.flatMap_singleton, hroom, Block.marshalSteps]
      rfl
    have hdeep : (Value.nestedList 100000 (.int 1)).toJson = .error .tooDeep :=
      toJsonWithin_nestedList false _ depthLimit 100000 (by decide)
    have hbuild : Plan.ofModules [⟨"", "", [deepBucket]⟩] = .error .tooDeep :=
      (ofModules_eq_error_iff _ _).2 ⟨[], _, _, hsplit, by simp,
        (MarshalStep.run_encode_eq_error_iff _ _ _ _).2 ⟨.tooDeep, hdeep, by simp⟩⟩
    rw [convertModules_of_render_error _ _ _ (render_of_ofModules_error _ none _ hbuild)]
    rfl
  · have hres : resourceBlocks [⟨"", "", [Block.chain "resource" 1000]⟩] =
        [Block.chain "resource" 1000] := rfl
    rw [encodedValues, hres, List.flatMap_singleton, Block.chain_encodedValues]
  · have hsplit : marshalSteps [⟨"", "", [Block.chain "resource" 1000]⟩] = [] ++ [.nestedTooDeep] := by
      have hres : resourceBlocks [⟨"", "", [Block.chain "resource" 1000]⟩] =
          [Block.chain "resource" 1000] := rfl
      rw [marshalSteps, hres, List.flatMap_singleton, Block.chain_marshalSteps]
      rfl
    have hbuild : Plan.ofModules [⟨"", "", [Block.chain "resource" 1000]⟩] = .error .blocksTooDeep :=
      (ofModules_eq_error_iff _ _).2 ⟨[], _, [], hsplit, by simp, rfl⟩
    rw [convertModules_of_render_error _ _ _ (render_of_ofModules_error _ none _ hbuild)]
    rfl

end BlockPlan
