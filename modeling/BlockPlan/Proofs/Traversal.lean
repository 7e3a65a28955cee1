import Mathlib.Data.List.Forall2
/-!
# Traversals that can fail

A plan is built by runs over modules, blocks, values and child blocks that stop at the first
value without a JSON form. The laws here say what such runs compute, for `Except` alone:

* `mapM_eq_error_iff`: a traversal fails with the error of its first failing element, after a
  prefix whose elements all succeed;
* `outcome` forgets what a computation returns and keeps whether, and how, it failed. The
  outcome of a traversal depends only on the outcomes of its steps (`outcome_mapM_congr`), and
  a traversal of a concatenation has the outcome of the traversal of its parts
  (`outcome_mapM_flatMap`);
* `foldlM_gated`: a fold whose steps fail whatever state they are given fails as the traversal
  of those steps does, and otherwise is the pure fold;
* what a successful traversal or fold tells: each result comes from an element
  (`exists_mem_of_mapM_ok`), an invariant of the steps holds of the end state
  (`foldlM_invariant`), and steps that succeed whenever others do make a run that succeeds
  whenever the other does (`mapM_ok_of_imp`, `foldlM_ok_of_imp`);
* `foldl_append_of_step`: what a pure fold appends to a list it carries, one step at a time;
* `toOption_mapM`, `toOption_foldlM`: forgetting the error of a traversal or a fold forgets the
  error of each step, and in `Option` a traversal fails exactly when some step does
  (`mapM_eq_none_iff`).
-/

namespace BlockPlan

/-- Whether a computation failed, and with which error; its result is forgotten. -/
def outcome {ε α : Type} : Except ε α → Except ε Unit
  | .error e => .error e
  | .ok _ => .ok ()

section Laws

variable {ε α β γ σ : Type}

@[simp] theorem outcome_ok (a : α) : outcome (.ok a : Except ε α) = .ok () := rfl

@[simp] theorem outcome_error (e : ε) : outcome (.error e : Except ε α) = .error e := rfl

@[simp] theorem outcome_map (f : α → β) (x : Except ε α) : outcome (f <$> x) = outcome x := by
  cases x <;> rfl

@[simp] theorem outcome_outcome (x : Except ε α) : outcome (outcome x) = outcome x := by
  cases x <;> rfl

theorem outcome_eq_error_iff (x : Except ε α) (e : ε) : outcome x = .error e ↔ x = .error e := by
  cases x <;> simp [outcome]

theorem outcome_eq_ok_iff (x : Except ε α) : outcome x = .ok () ↔ ∃ a, x = .ok a := by
  cases x <;> simp [outcome]

@[simp] theorem mapError_ok {ε' : Type} (f : ε → ε') (a : α) :
    (Except.ok a : Except ε α).mapError f = .ok a := rfl

@[simp] theorem mapError_error {ε' : Type} (f : ε → ε') (e : ε) :
    (Except.error e : Except ε α).mapError f = .error (f e) := rfl

theorem bind_eq_ok_iff (x : Except ε α) (f : α → Except ε β) (b : β) :
    x >>= f = .ok b ↔ ∃ a, x = .ok a ∧ f a = .ok b := by
  cases x <;> simp [bind, Except.bind]

theorem map_eq_ok_iff (f : α → β) (x : Except ε α) (b : β) :
    f <$> x = .ok b ↔ ∃ a, x = .ok a ∧ f a = b := by
  cases x <;> simp [Functor.map, Except.map]

theorem map_const_eq_ok_iff (c b : β) (x : Except ε α) :
    (fun _ => c) <$> x = .ok b ↔ outcome x = .ok () ∧ b = c := by
  cases x <;> simp [outcome, Functor.map, Except.map, eq_comm]

/-- A traversal fails with `e` exactly when some element fails with `e` after a prefix whose
elements all succeed; the elements after it are not run. -/
theorem mapM_eq_error_iff (f : α → Except ε β) (l : List α) (e : ε) :
    l.mapM f = .error e ↔
      ∃ pre a post, l = pre ++ a :: post ∧ (∀ x ∈ pre, ∃ v, f x = .ok v) ∧ f a = .error e := by
  induction l with
  | nil =>
    constructor
    · intro h
      cases h
    · rintro ⟨pre, a, post, h, -⟩
      cases pre <;> cases h
  | cons y l ih =>
    rw [List.mapM_cons]
    cases hy : f y with
    | error e' =>
      simp only [bind, Except.bind, Except.error.injEq]
      constructor
      · rintro rfl
        exact ⟨[], y, l, rfl, by simp, hy⟩
      · rintro ⟨pre, a, post, hl, hpre, ha⟩
        cases pre with
        | nil =>
          simp only [List.nil_append, List.cons.injEq] at hl
          rw [← hl.1, hy] at ha
          exact Except.error.inj ha
        | cons z pre =>
          simp only [List.cons_append, List.cons.injEq] at hl
          obtain ⟨v, hv⟩ := hpre z List.mem_cons_self
          rw [← hl.1, hy] at hv
          cases hv
    | ok v =>
      cases hl : l.mapM f with
      | error e' =>
        simp only [hl] at ih
        simp only [bind, Except.bind, Except.error.injEq]
        constructor
        · rintro rfl
          obtain ⟨pre, a, post, rfl, hpre, ha⟩ := ih.1 rfl
          refine ⟨y :: pre, a, post, rfl, ?_, ha⟩
          intro x hx
          rcases List.mem_cons.mp hx with rfl | hx
          · exact ⟨v, hy⟩
          · exact hpre x hx
        · rintro ⟨pre, a, post, hyl, hpre, ha⟩
          cases pre with
          | nil =>
            simp only [List.nil_append, List.cons.injEq] at hyl
            rw [← hyl.1, hy] at ha
            cases ha
          | cons z pre =>
            simp only [List.cons_append, List.cons.injEq] at hyl
            exact Except.error.inj
              (ih.2 ⟨pre, a, post, hyl.2, fun x hx => hpre x (List.mem_cons_of_mem z hx), ha⟩)
      | ok vs =>
        simp only [hl] at ih
        simp only [bind, Except.bind, pure, Except.pure]
        constructor
        · intro h
          cases h
        · rintro ⟨pre, a, post, hyl, hpre, ha⟩
          cases pre with
          | nil =>
            simp only [List.nil_append, List.cons.injEq] at hyl
            rw [← hyl.1, hy] at ha
            cases ha
          | cons z pre =>
            simp only [List.cons_append, List.cons.injEq] at hyl
            have hsome : (Except.ok vs : Except ε (List β)) = .error e :=
              ih.2 ⟨pre, a, post, hyl.2, fun x hx => hpre x (List.mem_cons_of_mem z hx), ha⟩
            cases hsome

/-- A traversal that succeeds ran every step to success. -/
theorem exists_ok_of_mapM_ok (f : α → Except ε β) (l : List α) (vs : List β)
    (h : l.mapM f = .ok vs) : ∀ a ∈ l, ∃ v, f a = .ok v := by
  induction l generalizing vs with
  | nil => simp
  | cons y l ih =>
    rw [List.mapM_cons] at h
    cases hy : f y with
    | error e => simp [hy, bind, Except.bind] at h
    | ok v =>
      cases hl : l.mapM f with
      | error e => simp [hy, hl, bind, Except.bind] at h
      | ok ws =>
        intro a ha
        rcases List.mem_cons.mp ha with rfl | ha
        · exact ⟨v, hy⟩
        · exact ih ws hl a ha

/-- A traversal that succeeds gives for each result an element that gave it. -/
theorem exists_mem_of_mapM_ok (f : α → Except ε β) (l : List α) (vs : List β)
    (h : l.mapM f = .ok vs) : ∀ b ∈ vs, ∃ a ∈ l, f a = .ok b := by
  induction l generalizing vs with
  | nil =>
    cases h
    simp
  | cons y l ih =>
    rw [List.mapM_cons] at h
    cases hy : f y with
    | error e => simp [hy, bind, Except.bind] at h
    | ok v =>
      cases hl : l.mapM f with
      | error e => simp [hy, hl, bind, Except.bind] at h
      | ok ws =>
        simp only [hy, hl, bind, Except.bind, pure, Except.pure, Except.ok.injEq] at h
        subst h
        intro b hb
        rcases List.mem_cons.1 hb with rfl | hb
        · exact ⟨y, List.mem_cons_self, hy⟩
        · obtain ⟨a, ha, hfa⟩ := ih ws hl b hb
          exact ⟨a, List.mem_cons_of_mem y ha, hfa⟩

/-- A traversal by steps each of which succeeds whenever another does, with its result, succeeds
whenever the other traversal does. -/
theorem mapM_ok_of_imp (f g : α → Except ε β) (l : List α) (vs : List β)
    (hfg : ∀ a ∈ l, ∀ b, f a = .ok b → g a = .ok b) (h : l.mapM f = .ok vs) :
    l.mapM g = .ok vs := by
  induction l generalizing vs with
  | nil => exact h
  | cons y l ih =>
    rw [List.mapM_cons] at h ⊢
    cases hy : f y with
    | error e => simp [hy, bind, Except.bind] at h
    | ok v =>
      cases hl : l.mapM f with
      | error e => simp [hy, hl, bind, Except.bind] at h
      | ok ws =>
        simp only [hy, hl, bind, Except.bind, pure, Except.pure] at h
        rw [hfg y List.mem_cons_self v hy,
          ih ws (fun a ha => hfg a (List.mem_cons_of_mem y ha)) hl]
        exact h

/-- A fold keeps an invariant that each of its steps keeps. -/
theorem foldlM_invariant (step : σ → α → Except ε σ) (I : σ → Prop) (l : List α)
    (hstep : ∀ s a s', a ∈ l → I s → step s a = .ok s' → I s') (s s' : σ) (hs : I s)
    (h : l.foldlM step s = .ok s') : I s' := by
  induction l generalizing s with
  | nil =>
    cases h
    exact hs
  | cons y l ih =>
    rw [List.foldlM_cons] at h
    cases hy : step s y with
    | error e => simp [hy, bind, Except.bind] at h
    | ok t =>
      simp only [hy, bind, Except.bind] at h
      exact ih (fun s a s' ha => hstep s a s' (List.mem_cons_of_mem y ha)) t
        (hstep s y t List.mem_cons_self hs hy) h

theorem foldl_invariant (step : σ → α → σ) (I : σ → Prop) (l : List α)
    (hstep : ∀ s a, a ∈ l → I s → I (step s a)) (s : σ) (hs : I s) : I (l.foldl step s) := by
  induction l generalizing s with
  | nil => exact hs
  | cons y l ih =>
    exact ih (fun t a ha => hstep t a (List.mem_cons_of_mem y ha)) _
      (hstep s y List.mem_cons_self hs)

/-- A fold by steps each of which succeeds whenever another does, with its result, succeeds
whenever the other fold does. -/
theorem foldlM_ok_of_imp (f g : σ → α → Except ε σ) (l : List α)
    (hfg : ∀ a ∈ l, ∀ s t, f s a = .ok t → g s a = .ok t) (s s' : σ)
    (h : l.foldlM f s = .ok s') : l.foldlM g s = .ok s' := by
  induction l generalizing s with
  | nil => exact h
  | cons y l ih =>
    rw [List.foldlM_cons] at h ⊢
    cases hy : f s y with
    | error e => simp [hy, bind, Except.bind] at h
    | ok t =>
      simp only [hy, bind, Except.bind] at h
      rw [hfg y List.mem_cons_self s t hy]
      exact ih (fun a ha => hfg a (List.mem_cons_of_mem y ha)) t h

/-- Steps with the same outcomes make traversals with the same outcome. -/
theorem outcome_mapM_congr (f : α → Except ε β) (g : α → Except ε γ) (l : List α)
    (h : ∀ a ∈ l, outcome (f a) = outcome (g a)) : outcome (l.mapM f) = outcome (l.mapM g) := by
  induction l with
  | nil => rfl
  | cons y l ih =>
    have hy := h y List.mem_cons_self
    have hl := ih fun a ha => h a (List.mem_cons_of_mem y ha)
    rw [List.mapM_cons, List.mapM_cons]
    cases hf : f y with
    | error e =>
      rw [hf, outcome_error, eq_comm, outcome_eq_error_iff] at hy
      simp [hy, bind, Except.bind]
    | ok v =>
      rw [hf, outcome_ok, eq_comm, outcome_eq_ok_iff] at hy
      obtain ⟨w, hw⟩ := hy
      cases hfl : l.mapM f with
      | error e =>
        rw [hfl, outcome_error, eq_comm, outcome_eq_error_iff] at hl
        simp [hw, hl, bind, Except.bind]
      | ok vs =>
        rw [hfl, outcome_ok, eq_comm, outcome_eq_ok_iff] at hl
        obtain ⟨ws, hws⟩ := hl
        simp [hw, hws, bind, Except.bind, pure, Except.pure]

/-- Traversing a concatenation of lists has the outcome of traversing the lists one by one. -/
theorem outcome_mapM_flatMap (f : α → List β) (g : β → Except ε γ) (l : List α) :
    outcome ((l.flatMap f).mapM g) = outcome (l.mapM fun a => (f a).mapM g) := by
  induction l with
  | nil => rfl
  | cons y l ih =>
    rw [List.flatMap_cons, List.mapM_append, List.mapM_cons]
    cases hy : (f y).mapM g with
    | error e => rfl
    | ok vs =>
      cases hl : (l.flatMap f).mapM g with
      | error e =>
        rw [hl, outcome_error, eq_comm, outcome_eq_error_iff] at ih
        simp [ih, bind, Except.bind]
      | ok ws =>
        rw [hl, outcome_ok, eq_comm, outcome_eq_ok_iff] at ih
        obtain ⟨us, hus⟩ := ih
        simp [hus, bind, Except.bind, pure, Except.pure]

/-- A fold whose steps fail whatever state they are given: it fails as the traversal of the
steps does, and otherwise it is the pure fold. -/
theorem foldlM_gated (g : α → Except ε β) (upd : σ → α → σ) (l : List α) (s : σ) :
    l.foldlM (fun s a => (fun _ => upd s a) <$> g a) s =
      (fun _ => l.foldl upd s) <$> outcome (l.mapM g) := by
  induction l generalizing s with
  | nil => rfl
  | cons y l ih =>
    rw [List.foldlM_cons, List.mapM_cons, List.foldl_cons]
    cases hy : g y with
    | error e => rfl
    | ok v =>
      have hrest := ih (upd s y)
      cases hl : l.mapM g with
      | error e =>
        rw [hl] at hrest
        exact hrest
      | ok vs =>
        rw [hl] at hrest
        exact hrest

/-- A pure fold that appends `h a` to a list it carries at each element appends the
concatenation of them all. -/
theorem foldl_append_of_step (π : σ → List γ) (h : α → List γ) (upd : σ → α → σ)
    (hupd : ∀ s a, π (upd s a) = π s ++ h a) (l : List α) (s : σ) :
    π (l.foldl upd s) = π s ++ l.flatMap h := by
  induction l generalizing s with
  | nil => simp
  | cons y l ih => rw [List.foldl_cons, ih, hupd, List.flatMap_cons, List.append_assoc]

theorem flatMap_ite_singleton (p : α → Bool) (f : α → γ) (l : List α) :
    l.flatMap (fun a => if p a then [f a] else []) = (l.filter p).map f := by
  induction l with
  | nil => rfl
  | cons y l ih =>
    rw [List.flatMap_cons, ih, List.filter_cons]
    cases p y <;> simp

end Laws

section Forget

/-! ## Forgetting the error

`Except.toOption` keeps whether a computation succeeded and its result. Traversals and folds
commute with it, so facts about results alone are stated in `Option`. -/

variable {ε α β γ σ : Type}

@[simp] theorem toOption_ok (a : α) : (Except.ok a : Except ε α).toOption = some a := rfl

@[simp] theorem toOption_error (e : ε) : (Except.error e : Except ε α).toOption = none := rfl

theorem toOption_eq_some_iff (x : Except ε α) (a : α) : x.toOption = some a ↔ x = .ok a := by
  cases x <;> simp [Except.toOption]

theorem toOption_bind (x : Except ε α) (f : α → Except ε β) :
    (x >>= f).toOption = x.toOption.bind fun a => (f a).toOption := by
  cases x <;> rfl

/-- Binds of computations with one result, or none, into steps with one result, or none, have
one result, or none. -/
theorem toOption_bind_congr (x y : Except ε α) (f g : α → Except ε β)
    (hxy : x.toOption = y.toOption) (hfg : ∀ a, (f a).toOption = (g a).toOption) :
    (x >>= f).toOption = (y >>= g).toOption := by
  rw [toOption_bind, toOption_bind, hxy]
  simp only [hfg]

theorem toOption_map (f : α → β) (x : Except ε α) : (f <$> x).toOption = f <$> x.toOption := by
  cases x <;> rfl

theorem toOption_mapError {ε' : Type} (f : ε → ε') (x : Except ε α) :
    (x.mapError f).toOption = x.toOption := by
  cases x <;> rfl

theorem toOption_outcome (x : Except ε α) : (outcome x).toOption = (fun _ => ()) <$> x.toOption := by
  cases x <;> rfl

theorem toOption_mapM (f : α → Except ε β) (l : List α) :
    (l.mapM f).toOption = l.mapM fun a => (f a).toOption := by
  induction l with
  | nil => rfl
  | cons y l ih =>
    rw [List.mapM_cons, List.mapM_cons, toOption_bind]
    cases f y with
    | error e => rfl
    | ok b =>
      simp only [toOption_ok, Option.bind_some, toOption_bind, ← ih]
      cases l.mapM f <;> rfl

theorem toOption_foldlM (f : σ → α → Except ε σ) (l : List α) (s : σ) :
    (l.foldlM f s).toOption = l.foldlM (fun s a => (f s a).toOption) s := by
  induction l generalizing s with
  | nil => rfl
  | cons y l ih =>
    rw [List.foldlM_cons, List.foldlM_cons, toOption_bind]
    cases f s y with
    | error e => rfl
    | ok t => exact ih t

theorem forall₂_both {R S : α → β → Prop} {l₁ : List α} {l₂ : List β}
    (hR : List.Forall₂ R l₁ l₂) (hS : List.Forall₂ S l₁ l₂) :
    List.Forall₂ (fun a b => R a b ∧ S a b) l₁ l₂ :=
  List.forall₂_iff_zip.2
    ⟨hR.length_eq, fun hab => ⟨List.forall₂_zip hR hab, List.forall₂_zip hS hab⟩⟩

theorem exists_mem_of_forall₂ {R : α → β → Prop} {l₁ : List α} {l₂ : List β}
    (h : List.Forall₂ R l₁ l₂) : ∀ b ∈ l₂, ∃ a ∈ l₁, R a b := by
  induction h with
  | nil => simp
  | cons hab _ ih =>
    intro b hb
    rcases List.mem_cons.1 hb with rfl | hb
    · exact ⟨_, List.mem_cons_self, hab⟩
    · obtain ⟨a, ha, hr⟩ := ih b hb
      exact ⟨a, List.mem_cons_of_mem _ ha, hr⟩

theorem map_eq_of_forall₂ (f : α → γ) (g : β → γ) {l₁ : List α} {l₂ : List β}
    (h : List.Forall₂ (fun a b => f a = g b) l₁ l₂) : l₁.map f = l₂.map g := by
  induction h with
  | nil => rfl
  | cons hab _ ih => rw [List.map_cons, List.map_cons, hab, ih]

theorem mapM_eq_of_forall₂ {m : Type → Type} [Monad m] [LawfulMonad m] (f : α → m γ)
    (g : β → m γ) {l₁ : List α} {l₂ : List β}
    (h : List.Forall₂ (fun a b => f a = g b) l₁ l₂) : l₁.mapM f = l₂.mapM g := by
  induction h with
  | nil => rfl
  | cons hab _ ih => rw [List.mapM_cons, List.mapM_cons, hab, ih]

theorem mapM_congr_of_mem {m : Type → Type} [Monad m] [LawfulMonad m] (f g : α → m γ)
    (l : List α) (h : ∀ a ∈ l, f a = g a) : l.mapM f = l.mapM g :=
  mapM_eq_of_forall₂ f g (List.forall₂_same.2 h)

theorem foldlM_eq_of_forall₂ {m : Type → Type} [Monad m] [LawfulMonad m] (f : σ → α → m σ)
    (g : σ → β → m σ) {l₁ : List α} {l₂ : List β}
    (h : List.Forall₂ (fun a b => ∀ s, f s a = g s b) l₁ l₂) (s : σ) :
    l₁.foldlM f s = l₂.foldlM g s := by
  induction h generalizing s with
  | nil => rfl
  | cons hab _ ih =>
    rw [List.foldlM_cons, List.foldlM_cons, hab s]
    congr 1
    funext t
    exact ih t

theorem foldl_eq_of_forall₂ (f : σ → α → σ) (g : σ → β → σ) {l₁ : List α} {l₂ : List β}
    (h : List.Forall₂ (fun a b => ∀ s, f s a = g s b) l₁ l₂) (s : σ) :
    l₁.foldl f s = l₂.foldl g s := by
  induction h generalizing s with
  | nil => rfl
  | cons hab _ ih => rw [List.foldl_cons, List.foldl_cons, hab s, ih]

/-- A traversal in `Option` fails exactly when some step fails. -/
theorem mapM_eq_none_iff (f : α → Option β) (l : List α) :
    l.mapM f = none ↔ ∃ a ∈ l, f a = none := by
  induction l with
  | nil => simp
  | cons y l ih =>
    rw [List.mapM_cons]
    cases hy : f y with
    | none => simp [hy]
    | some b =>
      cases hl : l.mapM f with
      | none =>
        simp only [hl] at ih
        obtain ⟨a, ha, hfa⟩ := ih.1 trivial
        simp only [Option.bind_eq_bind, Option.bind_some, Option.bind_none, true_iff]
        exact ⟨a, List.mem_cons_of_mem y ha, hfa⟩
      | some bs =>
        simp only [hl, reduceCtorEq, false_iff, not_exists, not_and] at ih
        simp only [Option.bind_eq_bind, Option.bind_some, Option.pure_def, reduceCtorEq,
          List.mem_cons, false_iff, not_exists, not_and]
        rintro a (rfl | ha) hfa
        · rw [hy] at hfa
          cases hfa
        · exact ih a ha hfa

end Forget

end BlockPlan
