import BlockPlan.Proofs.Entries
import BlockPlan.Proofs.Assembly

/-!
# The provider table of a plan

Every provider block of every module puts its configuration under its name in one table, in
module order and then in block order (`build_providers`); resources and other blocks never touch
the table. So the table of a plan built from modules (`providers_of_ofModules`) has

* one key per distinct provider name, in order of first occurrence across the modules;
* under each name, the configuration of the last provider block of that name: the name and its
  `region` when that is text.

Each module also has a default provider key, the first non-empty name among its provider blocks
(`addProviders_key`). A resource outside a module call without a `provider` text of its own is
declared under that key, and the key, when it is not empty, is a name of the table
(`ofModules_default_keys`).
-/

namespace BlockPlan

/-- The provider blocks of the modules, in module order and then in block order. -/
def providerBlocks (ms : List Module) : List Block := ms.flatMap fun m => m.blocksOf providerKind

/-- The default provider key of a module: the first non-empty name of its provider blocks, or
empty when there is none. -/
def Module.defaultProviderKey (m : Module) : Text :=
  (((m.blocksOf providerKind).map Plan.providerName).find? fun n => !n.isEmpty).getD Text.empty

namespace Plan

/-- The entry a provider block puts in the table: its configuration under its name. -/
def providerEntry (b : Block) : Text × ProviderConfig :=
  (providerName b, ⟨providerName b, (b.textAttribute? "region").getD ""⟩)

/-- The provider key of a resource outside a module call: its `provider` attribute when that is
non-empty text, else the default key. -/
def providerKeyOf (key : Text) (b : Block) : Text :=
  match b.textAttribute? "provider" with
  | some s => if s.isEmpty then key else s
  | none => key

/-! ## One step -/

@[simp] theorem record_providers (p : Plan) (key : Text) (b : Block)
    (v : Option (List (Text × Json))) : (p.record key b v).providers = p.providers := by
  unfold record
  split <;> rfl

theorem record_providerKeys (p : Plan) (key : Text) (b : Block) (v : Option (List (Text × Json))) :
    (p.record key b v).rootDeclarations.map Declaration.providerKey =
      p.rootDeclarations.map Declaration.providerKey ++
        (if b.hasModuleBlock then [] else [providerKeyOf key b]) := by
  unfold record
  by_cases hb : b.hasModuleBlock
  · simp [hb]
  · simp only [hb, Bool.false_eq_true, if_false, List.map_append, List.map_cons, List.map_nil]
    rfl

theorem addProvider_providers (acc : Plan × Text) (b : Block) :
    (addProvider acc b).1.providers =
      if b.kind == providerKind then
        putEntry acc.1.providers (providerEntry b).1 (providerEntry b).2
      else acc.1.providers := by
  unfold addProvider
  split <;> rfl

theorem addProvider_key (acc : Plan × Text) (b : Block) :
    (addProvider acc b).2 =
      if b.kind == providerKind then (if acc.2.isEmpty then providerName b else acc.2)
      else acc.2 := by
  unfold addProvider
  split <;> rfl

/-! ## The providers of a module -/

theorem foldl_addProvider_providers (blocks : List Block) (acc : Plan × Text) :
    (blocks.foldl addProvider acc).1.providers =
      ((blocks.filter fun b => b.kind == providerKind).map providerEntry).foldl
        (fun m x => putEntry m x.1 x.2) acc.1.providers := by
  induction blocks generalizing acc with
  | nil => rfl
  | cons b bs ih =>
    rw [List.foldl_cons, ih, addProvider_providers, List.filter_cons]
    by_cases hb : (b.kind == providerKind) = true <;> simp [hb]

theorem eq_empty_of_isEmpty {t : Text} (h : t.isEmpty = true) : t = Text.empty := by
  cases t
  simp_all [Text.isEmpty, Text.empty]

/-- The key after the providers of a list: the key so far when it is not empty, else the first
non-empty provider name. -/
theorem foldl_addProvider_key (blocks : List Block) (acc : Plan × Text) :
    (blocks.foldl addProvider acc).2 =
      ((acc.2 :: (blocks.filter fun b => b.kind == providerKind).map providerName).find?
        fun n => !n.isEmpty).getD acc.2 := by
  induction blocks generalizing acc with
  | nil => cases h : acc.2.isEmpty <;> simp [h]
  | cons b bs ih =>
    rw [List.foldl_cons, ih, addProvider_key, List.filter_cons]
    by_cases hb : (b.kind == providerKind) = true
    · by_cases hk : acc.2.isEmpty = true
      · -- the first provider name is taken; an empty one leaves the key empty
        have hacc := eq_empty_of_isEmpty hk
        by_cases hn : (providerName b).isEmpty = true
        · simp [hb, hacc, eq_empty_of_isEmpty hn, Text.isEmpty, Text.empty]
        · simp [hb, hk, hn]
      · simp [hb, hk]
    · simp [hb]

/-- **The default key of a module.** Recording the providers of a module gives its default
provider key. -/
theorem addProviders_key (p : Plan) (m : Module) :
    (p.addProviders m.blocks).2 = m.defaultProviderKey := by
  rw [addProviders, foldl_addProvider_key, Module.defaultProviderKey, Module.blocksOf]
  simp [Text.isEmpty, Text.empty]

theorem foldl_record_providers (bs : List Block) (key : Text) (p : Plan) :
    (bs.foldl (fun p b => p.record key b b.okValues) p).providers = p.providers := by
  induction bs generalizing p with
  | nil => rfl
  | cons b bs ih => rw [List.foldl_cons, ih, record_providers]

theorem buildModule_providers (p : Plan) (m : Module) :
    (p.buildModule m).providers =
      ((m.blocksOf providerKind).map providerEntry).foldl (fun m x => putEntry m x.1 x.2)
        p.providers := by
  unfold buildModule addProviders
  rw [foldl_record_providers, foldl_addProvider_providers]
  rfl

/-! ## The providers of a plan -/

/-- The provider table of the pure run: the provider blocks' entries put one by one. -/
theorem build_providers (ms : List Module) :
    (build ms).providers = putAll ((providerBlocks ms).map providerEntry) := by
  unfold build putAll providerBlocks
  -- over the modules, each module's entries are put after those of the modules before it
  suffices h : ∀ p, (ms.foldl buildModule p).providers =
      ((ms.flatMap fun m => m.blocksOf providerKind).map providerEntry).foldl
        (fun m x => putEntry m x.1 x.2) p.providers from h empty
  induction ms with
  | nil => intro p; rfl
  | cons m ms ih =>
    intro p
    rw [List.foldl_cons, ih, buildModule_providers, List.flatMap_cons, List.map_append,
      List.foldl_append]

theorem build_provider_names (ms : List Module) :
    (build ms).providers.map Prod.fst = ((providerBlocks ms).map providerName).eraseDups := by
  rw [build_providers, keys_putAll, List.map_map]
  rfl

/-- The entry of a name in the table of the pure run: the name and the region of the last provider
block of that name. -/
theorem build_provider_lookup (ms : List Module) (n : Text) :
    (build ms).providers.lookup n =
      ((providerBlocks ms).filter fun b => providerName b == n).getLast?.map
        fun b => ⟨n, (b.textAttribute? "region").getD ""⟩ := by
  rw [build_providers, lookup_putAll, List.filter_map, List.getLast?_map, Option.map_map]
  cases hlast : ((providerBlocks ms).filter ((fun x => x.1 == n) ∘ providerEntry)).getLast? with
  | none =>
    have hnone : ((providerBlocks ms).filter fun b => providerName b == n).getLast? = none := hlast
    rw [hnone]
    rfl
  | some b =>
    have hsome : ((providerBlocks ms).filter fun b => providerName b == n).getLast? = some b :=
      hlast
    have hname : providerName b = n := by
      simpa using (List.mem_filter.1 (List.mem_of_getLast? hsome)).2
    rw [hsome]
    simp [providerEntry, hname]

/-- **The provider table.** A plan built from modules has one provider entry per distinct name of
their provider blocks, in order of first occurrence, and under each name the region of the last
provider block of that name; no other block adds or changes an entry. -/
theorem providers_of_ofModules (ms : List Module) (p : Plan) (h : ofModules ms = .ok p) :
    p.providers.map Prod.fst = ((providerBlocks ms).map providerName).eraseDups ∧
      ∀ n, p.providers.lookup n =
        ((providerBlocks ms).filter fun b => providerName b == n).getLast?.map
          fun b => ⟨n, (b.textAttribute? "region").getD ""⟩ := by
  obtain ⟨rfl, -⟩ := eq_build_of_ofModules_ok ms p h
  exact ⟨build_provider_names ms, build_provider_lookup ms⟩

/-- Two modules: the first with an `aws` provider, an `aws` provider aliased `eu`, and a resource
whose provider key names no provider; the second with an `aws` provider of another region. -/
def twoRegionModules : List Module :=
  [⟨"", "", [⟨"provider", "aws", "", [⟨"region", .str "us-east-1", []⟩], [], none, false, none, "", ""⟩,
      ⟨"provider", "aws", "", [⟨"region", .str "eu-west-1", []⟩, ⟨"alias", .str "eu", []⟩], [], none,
        false, none, "", ""⟩,
      ⟨"resource", "aws_instance", "web", [⟨"provider", .str "aws.ghost", []⟩], [], none, false, none,
        "", ""⟩]⟩,
    ⟨"net", "./net", [⟨"provider", "aws", "", [⟨"region", .str "us-west-2", []⟩], [], none, false,
      none, "", ""⟩]⟩]

theorem twoRegionModules_providers :
    ofModules twoRegionModules = .ok (build twoRegionModules) ∧
      (build twoRegionModules).providers.map Prod.fst =
          ((providerBlocks twoRegionModules).map providerName).eraseDups ∧
        ∀ n, (build twoRegionModules).providers.lookup n =
          ((providerBlocks twoRegionModules).filter fun b => providerName b == n).getLast?.map
            fun b => ⟨n, (b.textAttribute? "region").getD ""⟩ := by
  have h : ofModules twoRegionModules = .ok (build twoRegionModules) := by
    rw [ofModules_gated]
    have hres : resourceBlocks twoRegionModules =
        [⟨"resource", "aws_instance", "web", [⟨"provider", .str "aws.ghost", []⟩], [], none, false,
          none, "", ""⟩] := by
      rfl
    rw [hres, List.mapM_cons, Block.plannedValuesWithin_bare _ rfl rfl (by decide)]
    rfl
  exact ⟨h, providers_of_ofModules _ _ h⟩

/-! ## Default provider keys -/

/-- Recording a module declares its resources outside module calls under its default key. -/
theorem buildModule_providerKeys (p : Plan) (m : Module) :
    (p.buildModule m).rootDeclarations.map Declaration.providerKey =
      p.rootDeclarations.map Declaration.providerKey ++
        ((m.blocksOf resourceKind).filter fun b => !b.hasModuleBlock).map
          (providerKeyOf m.defaultProviderKey) := by
  unfold buildModule
  have hkey := addProviders_key p m
  rcases hpk : p.addProviders m.blocks with ⟨p', key⟩
  rw [hpk] at hkey
  dsimp only at hkey ⊢
  subst hkey
  rw [foldl_append_of_step (fun p => p.rootDeclarations.map Declaration.providerKey)
    (fun b => if b.hasModuleBlock then [] else [providerKeyOf m.defaultProviderKey b]) _
    (fun p b => record_providerKeys p _ b _)]
  have hdecls : p'.rootDeclarations = p.rootDeclarations := by
    rw [← addProviders_rootDeclarations p m.blocks, hpk]
  rw [hdecls, ← flatMap_ite_singleton]
  congr 1
  apply List.flatMap_congr
  intro b _
  cases b.hasModuleBlock <;> rfl

/-- The provider keys of the root declarations of the pure run: for each module, those of its
resource blocks outside module calls, under the module's default key. -/
theorem build_providerKeys (ms : List Module) :
    (build ms).rootDeclarations.map Declaration.providerKey =
      ms.flatMap fun m => ((m.blocksOf resourceKind).filter fun b => !b.hasModuleBlock).map
        (providerKeyOf m.defaultProviderKey) :=
  foldl_append_of_step (fun p => p.rootDeclarations.map Declaration.providerKey) _ _
    buildModule_providerKeys ms empty

theorem defaultProviderKey_mem (m : Module) (h : m.defaultProviderKey.isEmpty = false) :
    m.defaultProviderKey ∈ (m.blocksOf providerKind).map providerName := by
  unfold Module.defaultProviderKey at h ⊢
  cases hfind : ((m.blocksOf providerKind).map providerName).find? (fun n => !n.isEmpty) with
  | none =>
    rw [hfind] at h
    simp [Text.isEmpty, Text.empty] at h
  | some n => exact List.mem_of_find?_eq_some hfind

/-- **Default keys.** In a plan built from modules, every resource of a module outside module
calls is declared under its own non-empty `provider` text, or else under the module's default
key, the first non-empty name of its provider blocks; and a default key that is not empty is a
name of the provider table. -/
theorem ofModules_default_keys (ms : List Module) (p : Plan) (h : ofModules ms = .ok p) :
    p.rootDeclarations.map Declaration.providerKey =
        ms.flatMap (fun m => ((m.blocksOf resourceKind).filter fun b => !b.hasModuleBlock).map
          (providerKeyOf m.defaultProviderKey)) ∧
      ∀ m ∈ ms, m.defaultProviderKey.isEmpty = false →
        m.defaultProviderKey ∈ p.providers.map Prod.fst := by
  obtain ⟨rfl, -⟩ := eq_build_of_ofModules_ok ms p h
  refine ⟨build_providerKeys ms, fun m hm hk => ?_⟩
  rw [build_provider_names, List.mem_eraseDups, providerBlocks, List.map_flatMap]
  exact List.mem_flatMap.2 ⟨m, hm, defaultProviderKey_mem m hk⟩

end Plan

end BlockPlan
