import BlockPlan.Proofs.ReadBack

/-!
# The faults that refuse a plan's document

A plan's document puts maps chosen by the configuration under fixed keys: the values of each
resource, the values after each change, and the expressions of each declaration; `Plan.payloads`
lists the values of those maps in document order. The writer replaces surrogates in the keys of
such a map and looks into the values under them. Inside a value it meets a fault at each key that
holds surrogates, whose value it then does not look into, and at each container nested past
`serializerDepthLimit` levels (`Json.wireFaults`). It stops at the first fault
(`Json.checkWithin_eq`), so a plan's document is refused with the first fault of all
(`Plan.outcome_toJson`):

    outcome p.toJson = failFirst p.wireFaults

A value has no fault exactly when its containers nest within the limit and no key inside it, at
any depth, holds a surrogate (`Json.wireFaults_eq_nil_iff`).
-/

namespace BlockPlan

/-- Fails with the first of the faults, if any. -/
def failFirst {ε : Type} : List ε → Except ε Unit
  | [] => .ok ()
  | e :: _ => .error e

section FailFirst

variable {ε α β σ : Type}

theorem failFirst_append (l₁ l₂ : List ε) :
    failFirst (l₁ ++ l₂) = failFirst l₁ >>= fun _ => failFirst l₂ := by
  cases l₁ <;> rfl

theorem failFirst_eq_ok_iff (l : List ε) : failFirst l = .ok () ↔ l = [] := by
  cases l <;> simp [failFirst]

theorem failFirst_eq_error_iff (l : List ε) (e : ε) : failFirst l = .error e ↔ l.head? = some e := by
  cases l <;> simp [failFirst]

/-- A run of checks, each failing with the first of its faults, fails with the first fault of
all. -/
theorem forM_eq_failFirst (f : α → Except ε Unit) (g : α → List ε) (l : List α)
    (h : ∀ a ∈ l, f a = failFirst (g a)) : l.forM f = failFirst (l.flatMap g) := by
  induction l with
  | nil => rfl
  | cons a l ih =>
    show (f a >>= fun _ => l.forM f) = _
    rw [List.flatMap_cons, failFirst_append, h a List.mem_cons_self,
      ih fun b hb => h b (List.mem_cons_of_mem a hb)]

theorem outcome_bind_failFirst (x : Except ε α) (f : α → Except ε β) (l₁ l₂ : List ε)
    (hx : outcome x = failFirst l₁) (hf : ∀ a, outcome (f a) = failFirst l₂) :
    outcome (x >>= f) = failFirst (l₁ ++ l₂) := by
  rw [failFirst_append, ← hx]
  cases x with
  | error e => rfl
  | ok a => exact hf a

theorem outcome_mapM_failFirst (f : α → Except ε β) (g : α → List ε) (l : List α)
    (h : ∀ a ∈ l, outcome (f a) = failFirst (g a)) :
    outcome (l.mapM f) = failFirst (l.flatMap g) := by
  induction l with
  | nil => rfl
  | cons a l ih =>
    rw [List.mapM_cons, List.flatMap_cons]
    refine outcome_bind_failFirst _ _ _ _ (h a List.mem_cons_self) fun _ => ?_
    rw [← List.append_nil (l.flatMap g)]
    exact outcome_bind_failFirst _ _ _ _ (ih fun b hb => h b (List.mem_cons_of_mem a hb))
      fun _ => rfl

theorem outcome_foldlM_failFirst (f : σ → α → Except ε σ) (g : α → List ε) (l : List α) (s : σ)
    (h : ∀ s, ∀ a ∈ l, outcome (f s a) = failFirst (g a)) :
    outcome (l.foldlM f s) = failFirst (l.flatMap g) := by
  induction l generalizing s with
  | nil => rfl
  | cons a l ih =>
    rw [List.foldlM_cons, List.flatMap_cons]
    exact outcome_bind_failFirst _ _ _ _ (h s a List.mem_cons_self)
      fun t => ih t fun u b hb => h u b (List.mem_cons_of_mem a hb)

end FailFirst

namespace Json

/-- The faults the writer meets inside a value with room for `room` levels of containers, in
document order: each key that holds surrogates, whose value it then does not look into, and each
container met with no room left. -/
def wireFaults : Nat → Json → List WireError
  | 0, .arr _ => [.tooDeep]
  | 0, .obj _ => [.tooDeep]
  | room + 1, .arr items => items.flatMap (wireFaults room)
  | room + 1, .obj fields => fields.flatMap fun e =>
    match e.1.firstSurrogateRun with
    | some run => [.nestedKey run]
    | none => wireFaults room e.2
  | _, _ => []

/-- The writer stops at the first fault inside a value. -/
theorem checkWithin_eq (room : Nat) (j : Json) :
    j.checkWithin room = failFirst (j.wireFaults room) := by
  induction room generalizing j with
  | zero => cases j <;> rfl
  | succ room ih =>
    cases j
    case arr items => exact forM_eq_failFirst _ _ items fun x _ => ih x
    case obj fields =>
      refine forM_eq_failFirst _ _ fields fun e _ => ?_
      cases e.1.firstSurrogateRun with
      | some run => rfl
      | none => exact ih e.2
    all_goals rfl

mutual

/-- The keys of a value at any depth, in document order. -/
def keys : Json → List Text
  | .arr items => keysItems items
  | .obj fields => keysFields fields
  | _ => []

/-- The keys inside array items. -/
def keysItems : List Json → List Text
  | [] => []
  | j :: rest => j.keys ++ keysItems rest

/-- The keys of object members, each before the keys inside its value. -/
def keysFields : List (Text × Json) → List Text
  | [] => []
  | (k, j) :: rest => k :: (j.keys ++ keysFields rest)

end

theorem depthItems_le_iff {items : List Json} {n : Nat} :
    depthItems items ≤ n ↔ ∀ j ∈ items, j.depth ≤ n := by
  induction items with
  | nil => simp [depthItems]
  | cons j rest ih => simp [depthItems, ih]

theorem depthFields_le_iff {fields : List (Text × Json)} {n : Nat} :
    depthFields fields ≤ n ↔ ∀ e ∈ fields, e.2.depth ≤ n := by
  induction fields with
  | nil => simp [depthFields]
  | cons e rest ih =>
    obtain ⟨k, j⟩ := e
    simp [depthFields, ih]

theorem mem_keysItems {items : List Json} {k : Text} :
    k ∈ keysItems items ↔ ∃ j ∈ items, k ∈ j.keys := by
  induction items with
  | nil => simp [keysItems]
  | cons j rest ih => simp [keysItems, ih]

theorem mem_keysFields {fields : List (Text × Json)} {k : Text} :
    k ∈ keysFields fields ↔ ∃ e ∈ fields, k = e.1 ∨ k ∈ e.2.keys := by
  induction fields with
  | nil => simp [keysFields]
  | cons e rest ih =>
    obtain ⟨k', j⟩ := e
    simp [keysFields, ih, or_assoc]

/-- A value has no fault exactly when its containers nest within the room and no key inside it
holds a surrogate. -/
theorem wireFaults_eq_nil_iff (room : Nat) (j : Json) :
    j.wireFaults room = [] ↔ j.depth ≤ room ∧ ∀ k ∈ j.keys, k.firstSurrogateRun = none := by
  induction room generalizing j with
  | zero => cases j <;> simp [wireFaults, depth, keys]
  | succ room ih =>
    cases j
    case arr items =>
      simp only [wireFaults, List.flatMap_eq_nil_iff, ih, depth, keys, Nat.add_le_add_iff_right,
        depthItems_le_iff, mem_keysItems]
      grind
    case obj fields =>
      have hfield : ∀ e : Text × Json, (match e.1.firstSurrogateRun with
          | some run => [WireError.nestedKey run]
          | none => e.2.wireFaults room) = [] ↔
          e.1.firstSurrogateRun = none ∧ e.2.wireFaults room = [] := by
        intro e
        cases e.1.firstSurrogateRun <;> simp
      simp only [wireFaults, List.flatMap_eq_nil_iff, hfield, ih, depth, keys,
        Nat.add_le_add_iff_right, depthFields_le_iff, mem_keysFields]
      constructor
      · intro h
        refine ⟨fun e he => (h e he).2.1, fun k ⟨e, he, hk⟩ => ?_⟩
        rcases hk with rfl | hk
        exacts [(h e he).1, (h e he).2.2 k hk]
      · rintro ⟨hdepth, hkeys⟩ e he
        exact ⟨hkeys e.1 ⟨e, he, .inl rfl⟩, hdepth e he, fun k hk => hkeys k ⟨e, he, .inr hk⟩⟩
    all_goals simp [wireFaults, depth, keys]

/-- Each fault inside a value is a container past the room or a key inside it that holds a
surrogate. -/
theorem mem_wireFaults {room : Nat} {j : Json} {w : WireError} (h : w ∈ j.wireFaults room) :
    (w = .tooDeep ∧ room < j.depth) ∨
      ∃ k ∈ j.keys, ∃ run, k.firstSurrogateRun = some run ∧ w = .nestedKey run := by
  induction room generalizing j with
  | zero =>
    cases j
    case arr items => exact .inl ⟨List.mem_singleton.1 h, Nat.succ_pos _⟩
    case obj fields => exact .inl ⟨List.mem_singleton.1 h, Nat.succ_pos _⟩
    all_goals simp [wireFaults] at h
  | succ room ih =>
    cases j
    case arr items =>
      obtain ⟨x, hx, hw⟩ := List.mem_flatMap.1 h
      rcases ih hw with ⟨rfl, hdeep⟩ | ⟨k, hk, run, hrun, rfl⟩
      · have hx : x.depth ≤ depthItems items := depthItems_le_iff.1 le_rfl x hx
        exact .inl ⟨rfl, by simp only [depth]; omega⟩
      · exact .inr ⟨k, mem_keysItems.2 ⟨x, hx, hk⟩, run, hrun, rfl⟩
    case obj fields =>
      obtain ⟨e, he, hw⟩ := List.mem_flatMap.1 h
      cases hrun : e.1.firstSurrogateRun with
      | some run =>
        rw [hrun] at hw
        exact .inr ⟨e.1, mem_keysFields.2 ⟨e, he, .inl rfl⟩, run, hrun, List.mem_singleton.1 hw⟩
      | none =>
        rw [hrun] at hw
        rcases ih hw with ⟨rfl, hdeep⟩ | ⟨k, hk, run, hkrun, rfl⟩
        · have he : e.2.depth ≤ depthFields fields := depthFields_le_iff.1 le_rfl e he
          exact .inl ⟨rfl, by simp only [depth]; omega⟩
        · exact .inr ⟨k, mem_keysFields.2 ⟨e, he, .inr hk⟩, run, hkrun, rfl⟩
    all_goals simp [wireFaults] at h

end Json

/-- The faults the writer meets in a map chosen by the configuration, in document order. -/
def payloadFaults (m : List (Text × Json)) : List WireError :=
  (m.map Prod.snd).flatMap (Json.wireFaults serializerDepthLimit)

theorem outcome_payload (m : List (Text × Json)) :
    outcome (payload m) = failFirst (payloadFaults m) := by
  unfold payload payloadFaults
  rw [List.flatMap_map]
  simp only [bind_pure_comp, outcome_map]
  refine outcome_foldlM_failFirst _ _ m [] fun s e _ => ?_
  rw [Json.checkWithin_eq]
  cases e.2.wireFaults serializerDepthLimit <;> rfl

theorem outcome_optionalPayload (v : Option (List (Text × Json))) :
    outcome (optionalPayload v) = failFirst (payloadFaults (v.getD [])) := by
  cases v with
  | none => rfl
  | some m => exact outcome_payload m

theorem PlannedResource.outcome_toJson (r : PlannedResource) :
    outcome r.toJson = failFirst (payloadFaults (r.values.getD [])) := by
  unfold PlannedResource.toJson
  simp only [bind_pure_comp, outcome_map]
  exact outcome_optionalPayload _

theorem Change.outcome_toJson (c : Change) :
    outcome c.toJson = failFirst (payloadFaults (c.after.getD [])) := by
  unfold Change.toJson
  simp only [bind_pure_comp, outcome_map]
  exact outcome_optionalPayload _

theorem Declaration.outcome_toJson (d : Declaration) :
    outcome d.toJson = failFirst (payloadFaults (Expression.fieldsToJson d.expressions)) := by
  unfold Declaration.toJson
  simp only [bind_pure_comp, outcome_map]
  exact outcome_payload _

theorem ModuleCall.outcome_toJson (c : ModuleCall) :
    outcome c.toJson = failFirst (c.declarations.flatMap fun d =>
      payloadFaults (Expression.fieldsToJson d.expressions)) := by
  unfold ModuleCall.toJson
  simp only [bind_pure_comp, outcome_map]
  exact outcome_mapM_failFirst _ _ _ fun d _ => d.outcome_toJson

/-- The values a plan's document puts under keys chosen by the configuration, in document order:
the values of the resources at the root and of those in the bucket of module-nested resources,
the values after each change, then the expressions of the root declarations and of the
declarations of each module call. -/
def Plan.payloads (p : Plan) : List Json :=
  (p.rootResources.flatMap fun r => (r.values.getD []).map Prod.snd) ++
    (p.childResources.flatMap fun r => (r.values.getD []).map Prod.snd) ++
    (p.changes.flatMap fun c => (c.after.getD []).map Prod.snd) ++
    (p.rootDeclarations.flatMap fun d => (Expression.fieldsToJson d.expressions).map Prod.snd) ++
    (p.calls.flatMap fun c => c.2.declarations.flatMap fun d =>
      (Expression.fieldsToJson d.expressions).map Prod.snd)

/-- The faults the writer meets in a plan's document, in document order. -/
def Plan.wireFaults (p : Plan) : List WireError :=
  p.payloads.flatMap (Json.wireFaults serializerDepthLimit)

theorem Plan.wireFaults_eq (p : Plan) :
    p.wireFaults =
      (p.rootResources.flatMap fun r => payloadFaults (r.values.getD [])) ++
        ((p.childResources.flatMap fun r => payloadFaults (r.values.getD [])) ++
          ((p.changes.flatMap fun c => payloadFaults (c.after.getD [])) ++
            ((p.rootDeclarations.flatMap fun d =>
                payloadFaults (Expression.fieldsToJson d.expressions)) ++
              ((p.calls.flatMap fun c => c.2.declarations.flatMap fun d =>
                payloadFaults (Expression.fieldsToJson d.expressions)) ++ [])))) := by
  simp only [Plan.wireFaults, Plan.payloads, payloadFaults, List.flatMap_append, List.flatMap_assoc,
    List.append_assoc, List.append_nil]

/-- A plan's document is refused with the first fault the writer meets in it. -/
theorem Plan.outcome_toJson (p : Plan) : outcome p.toJson = failFirst p.wireFaults := by
  unfold Plan.toJson
  rw [Plan.wireFaults_eq]
  refine outcome_bind_failFirst _ _ _ _
    (outcome_mapM_failFirst _ _ _ fun r _ => r.outcome_toJson) fun _ => ?_
  refine outcome_bind_failFirst _ _ _ _
    (outcome_mapM_failFirst _ _ _ fun r _ => r.outcome_toJson) fun _ => ?_
  refine outcome_bind_failFirst _ _ _ _
    (outcome_mapM_failFirst _ _ _ fun c _ => c.outcome_toJson) fun _ => ?_
  refine outcome_bind_failFirst _ _ _ _
    (outcome_mapM_failFirst _ _ _ fun d _ => d.outcome_toJson) fun _ => ?_
  refine outcome_bind_failFirst _ _ _ _ (outcome_foldlM_failFirst _ _ _ _ fun s c _ => ?_)
    fun _ => rfl
  simp only [bind_pure_comp, outcome_map]
  exact c.2.outcome_toJson

theorem Plan.toJson_eq_error_iff (p : Plan) (w : WireError) :
    p.toJson = .error w ↔ p.wireFaults.head? = some w := by
  rw [← outcome_eq_error_iff, Plan.outcome_toJson, failFirst_eq_error_iff]

theorem Plan.exists_toJson_iff (p : Plan) : (∃ D, p.toJson = .ok D) ↔ p.wireFaults = [] := by
  rw [← outcome_eq_ok_iff, Plan.outcome_toJson, failFirst_eq_ok_iff]

/-- Each fault in a plan's document is a value nested past the limit or a key inside a value that
holds a surrogate. -/
theorem Plan.mem_wireFaults {p : Plan} {w : WireError} (h : w ∈ p.wireFaults) :
    (w = .tooDeep ∧ ∃ j ∈ p.payloads, serializerDepthLimit < j.depth) ∨
      ∃ j ∈ p.payloads, ∃ k ∈ j.keys, ∃ run, k.firstSurrogateRun = some run ∧
        w = .nestedKey run := by
  obtain ⟨j, hj, hw⟩ := List.mem_flatMap.1 h
  rcases Json.mem_wireFaults hw with ⟨rfl, hdeep⟩ | ⟨k, hk, run, hrun, rfl⟩
  · exact .inl ⟨rfl, j, hj, hdeep⟩
  · exact .inr ⟨j, hj, k, hk, run, hrun, rfl⟩

/-- A plan's document has no fault exactly when the containers of every value under a key chosen
by the configuration nest within the limit and no key inside those values holds a surrogate. -/
theorem Plan.wireFaults_eq_nil_iff (p : Plan) :
    p.wireFaults = [] ↔ ∀ j ∈ p.payloads,
      j.depth ≤ serializerDepthLimit ∧ ∀ k ∈ j.keys, k.firstSurrogateRun = none := by
  simp only [Plan.wireFaults, List.flatMap_eq_nil_iff, Json.wireFaults_eq_nil_iff]

end BlockPlan
