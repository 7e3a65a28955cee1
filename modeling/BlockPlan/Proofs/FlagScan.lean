import Mathlib.Data.List.Find
import Mathlib.Data.List.TakeDrop
import BlockPlan.Flags
import BlockPlan.Proofs.Entries

/-!
# Plan flags as a plain scan

`PlanVars.ofFlags` reads the words of a flag line with a general option parser
(`Cli.Command.parse`): a word that starts like an option is split at its first `=` and the part
before it is looked up among the long option names; a word that names none is read as short
options, of which the plan-flags command declares none, so it is kept as an operand. The same
words are read by a plainer rule (`scanFlagWords`), one word at a time:

* `--` ends the scan;
* `-var` or `--var` (`-var-file` or `--var-file`) takes the next word, whatever it is, as a
  variable (a variable file), and fails at the end of the line;
* a word that starts with one of these names followed by `=` gives the text after that `=`;
* any other word is passed over.

Main statement (`PlanVars.parse_eq_scanFlagWords`): reading plan flags is splitting the line
into words and scanning them by the plain rule, and a line that cannot be split fails with the
splitter's message. Every word has the same role for both (`flagRole_eq`, the
`processOption_of_*` lemmas), and a run of the parser with more fuel than words stands to the
scan of the same words (`scanOptions_relates`).
-/

namespace BlockPlan

/-- The spellings of the flags that take a value, each with the list it adds to: variables
(`true`) or variable files (`false`). -/
def valueFlags : List (Text × Bool) :=
  [("-var", true), ("--var", true), ("-var-file", false), ("--var-file", false)]

/-- What a word does among plan flags: a flag spelled alone takes the next word (`none`), a flag
joined by `=` carries its value; words of no role are passed over. -/
def flagRole (w : Text) : Option (Bool × Option Text) :=
  match valueFlags.find? (·.1 = w) with
  | some (_, t) => some (t, none)
  | none =>
    (valueFlags.find? fun f => w.startsWith (f.1 ++ "=")).map fun (name, t) =>
      (t, some ⟨w.points.drop (name.length + 1)⟩)

/-- Adds a value to the list a flag names: variables (`true`) or variable files (`false`). -/
def PlanVars.add (p : PlanVars) (toVars : Bool) (v : Text) : PlanVars :=
  if toVars then { p with vars := p.vars ++ [v] } else { p with files := p.files ++ [v] }

/-- Scans words for variable flags by the plain rule. -/
def scanFlagWords (acc : PlanVars) : List Text → Except FlagsError PlanVars
  | [] => .ok acc
  | w :: rest =>
    if w = "--" then .ok acc
    else
      match flagRole w with
      | some (t, some v) => scanFlagWords (acc.add t v) rest
      | some (t, none) =>
        match rest with
        | v :: rest' => scanFlagWords (acc.add t v) rest'
        | [] => .error (.usage (.needsValue w))
      | none => scanFlagWords acc rest

open Cli

/-! ## Splitting a word at its first `=` -/

/-- A word is its part before the first `=`, which holds none, then `=` and the value if there
is one. -/
theorem splitAttached_points (w : Text) :
    0x3D ∉ (splitAttached w).1.points ∧
      w.points = (splitAttached w).1.points ++
        ((splitAttached w).2.map fun v => 0x3D :: v.points).getD [] := by
  unfold splitAttached
  split
  · rename_i i hi
    obtain ⟨hlt, hat, hbefore⟩ := List.findIdx?_eq_some_iff_getElem.1 hi
    have heq : w.points[i] = 0x3D := by simpa using hat
    refine ⟨fun hmem => ?_, ?_⟩
    · obtain ⟨j, hj, hjeq⟩ := List.mem_take_iff_getElem.1 hmem
      exact hbefore j (by omega) (by simpa using hjeq)
    · simp only [Option.map_some, Option.getD_some]
      rw [← heq, ← List.drop_eq_getElem_cons hlt, List.take_append_drop]
  · rename_i hnone
    have hfree := List.findIdx?_eq_none_iff.1 hnone
    exact ⟨fun hmem => by simpa using hfree _ hmem, by simp⟩

theorem splitAttached_fst_of_snd (w : Text) (h : (splitAttached w).2 = none) :
    (splitAttached w).1 = w := by
  have hsplit := (splitAttached_points w).2
  rw [h, Option.map_none, Option.getD_none, List.append_nil] at hsplit
  exact congrArg Text.mk hsplit.symm

theorem prefix_eq_of_eq_free (n pre value : List Nat) (hn : 0x3D ∉ n) (hpre : 0x3D ∉ pre) :
    (n ++ [0x3D]).isPrefixOf (pre ++ 0x3D :: value) = true ↔ n = pre := by
  induction pre generalizing n with
  | nil =>
    cases n with
    | nil => simp
    | cons c n =>
      have hc : c ≠ 0x3D := fun h => hn (h ▸ List.mem_cons_self)
      simp [List.isPrefixOf_cons_cons, hc]
  | cons p pre ih =>
    cases n with
    | nil =>
      have hp : 0x3D ≠ p := fun h => hpre (h ▸ List.mem_cons_self)
      simp [List.isPrefixOf_cons_cons, hp]
    | cons c n =>
      simp only [List.cons_append, List.isPrefixOf_cons_cons, Bool.and_eq_true, beq_iff_eq,
        List.cons.injEq]
      rw [ih n (fun h => hn (List.mem_cons_of_mem c h)) (fun h => hpre (List.mem_cons_of_mem p h))]

/-! ## The names of the flags -/

theorem valueFlags_names {n : Text} {t : Bool} (h : (n, t) ∈ valueFlags) :
    0x3D ∉ n.points ∧ ∃ c rest, n.points = 0x2D :: c :: rest := by
  simp only [valueFlags, List.mem_cons, Prod.mk.injEq, List.not_mem_nil, or_false] at h
  rcases h with ⟨rfl, -⟩ | ⟨rfl, -⟩ | ⟨rfl, -⟩ | ⟨rfl, -⟩ <;>
    exact ⟨by decide, _, _, rfl⟩

theorem flagRole_of_no_value (w : Text) (hw : 0x3D ∉ w.points) :
    flagRole w = (valueFlags.find? (·.1 = w)).map fun f => (f.2, none) := by
  have hjoined : valueFlags.find? (fun f => w.startsWith (f.1 ++ "=")) = none := by
    rw [List.find?_eq_none]
    intro f _ hf
    have hmem := List.IsPrefix.subset (List.isPrefixOf_iff_prefix.1 hf)
      (List.mem_append_right f.1.points (List.mem_singleton_self 0x3D))
    exact hw hmem
  unfold flagRole
  cases valueFlags.find? (·.1 = w) with
  | none => simp [hjoined]
  | some f => rfl

/-- A word with an `=`: the part before it names the flag, and the value follows. -/
theorem flagRole_of_value (w : Text) (pre value : List Nat) (hpre : 0x3D ∉ pre)
    (hw : w.points = pre ++ 0x3D :: value) :
    flagRole w = (valueFlags.find? (·.1 = ⟨pre⟩)).map fun f => (f.2, some ⟨value⟩) := by
  have hexact : valueFlags.find? (·.1 = w) = none := by
    rw [List.find?_eq_none]
    intro f hf heq
    have hfree := (valueFlags_names hf).1
    simp only [decide_eq_true_eq] at heq
    rw [heq, hw] at hfree
    simp at hfree
  have hsame : ∀ f ∈ valueFlags, w.startsWith (f.1 ++ "=") = decide (f.1 = ⟨pre⟩) := by
    intro f hf
    rw [Bool.eq_iff_iff, decide_eq_true_iff, Text.startsWith, hw]
    show (f.1.points ++ [0x3D]).isPrefixOf _ = true ↔ _
    rw [prefix_eq_of_eq_free _ _ _ (valueFlags_names hf).1 hpre]
    obtain ⟨⟨n⟩, t⟩ := f
    exact ⟨fun h => h ▸ rfl, Text.mk.inj⟩
  unfold flagRole
  rw [hexact]
  dsimp only
  rw [List.find?_congr hsame]
  cases hfind : valueFlags.find? (fun f => decide (f.1 = ⟨pre⟩)) with
  | none => simp
  | some f =>
    obtain ⟨n, t⟩ := f
    have hname : n = ⟨pre⟩ := by simpa using List.find?_some hfind
    subst hname
    simp [Text.length, hw]

theorem flagRole_eq (w : Text) :
    flagRole w = (valueFlags.find? (·.1 = (splitAttached w).1)).map
      fun f => (f.2, (splitAttached w).2) := by
  obtain ⟨hfree, hsplit⟩ := splitAttached_points w
  cases hv : (splitAttached w).2 with
  | none =>
    rw [splitAttached_fst_of_snd w hv] at hfree ⊢
    exact flagRole_of_no_value w hfree
  | some v =>
    rw [hv] at hsplit
    exact flagRole_of_value w _ v.points hfree hsplit

theorem flagRole_of_not_option (w : Text) (hw : looksLikeOption w = false) : flagRole w = none := by
  rw [flagRole_eq, Option.map_eq_none_iff, List.find?_eq_none]
  intro f hf hname
  obtain ⟨-, c, rest, hn⟩ := valueFlags_names hf
  have hsplit := (splitAttached_points w).2
  rw [← of_decide_eq_true hname, hn] at hsplit
  simp [looksLikeOption, Text.length, hsplit] at hw

/-! ## The command's options -/

/-- The option a flag spelling adds to: the variables' (`true`) or the variable files'. -/
def flagOption (toVars : Bool) : Switch := if toVars then varsSwitch else varFilesSwitch

theorem longSwitch_planFlags (name : Text) :
    planFlagsCommand.longSwitch name = (valueFlags.find? (·.1 = name)).map (flagOption ·.2) := by
  by_cases h1 : name = "-var"
  · subst h1
    rfl
  by_cases h2 : name = "--var"
  · subst h2
    rfl
  by_cases h3 : name = "-var-file"
  · subst h3
    rfl
  by_cases h4 : name = "--var-file"
  · subst h4
    rfl
  have hnone : valueFlags.find? (·.1 = name) = none := by
    simp only [List.find?_eq_none, valueFlags, List.mem_cons, List.not_mem_nil, or_false,
      decide_eq_true_eq]
    rintro f (rfl | rfl | rfl | rfl) <;> simp_all [eq_comm]
  have hnames : ∀ s ∈ planFlagsCommand.switches, ∀ n ∈ s.names, txt n ≠ name := by
    simp only [planFlagsCommand, varsSwitch, varFilesSwitch, List.mem_cons, List.not_mem_nil,
      or_false]
    rintro s (rfl | rfl) n hn h <;>
      obtain rfl | rfl := by simpa only [List.mem_cons, List.not_mem_nil, or_false] using hn
    exacts [h1 h.symm, h2 h.symm, h3 h.symm, h4 h.symm]
  rw [hnone, Option.map_none, Command.longSwitch, List.find?_eq_none]
  intro s hs
  rw [Bool.not_eq_true, List.any_eq_false]
  intro n hn
  simp [hnames s hs n hn]

theorem shortSwitch_planFlags (name : Text) : planFlagsCommand.shortSwitch name = none := by
  have hlong : ∀ s ∈ planFlagsCommand.switches, ∀ n ∈ s.names, isShortName n = false := by
    decide
  rw [Command.shortSwitch, List.find?_eq_none]
  intro s hs
  rw [Bool.not_eq_true, List.any_eq_false]
  intro n hn
  simp [hlong s hs n hn]

theorem Cli.givenValues_record {st : ParseState} {s : Switch} (hs : s.multiple = true) (v : Text)
    (key : String) :
    givenValues (Command.record st s (.value v)).given key =
      if key = s.key then givenValues st.given key ++ [v] else givenValues st.given key := by
  unfold Command.record givenValues
  rw [hs]
  simp only [lookup_putEntry]
  by_cases hk : key = s.key
  · subst hk
    cases hg : st.given.lookup s.key with
    | none => simp
    | some g => cases g <;> simp
  · simp [hk]

/-! ## One word -/

theorem matchShort_go_planFlags (p : Nat) (chars unknown : List Nat) (st : ParseState) :
    Command.matchShort.go planFlagsCommand p chars unknown st =
      .ok (Command.matchShort.finish planFlagsCommand p (unknown ++ chars) st) := by
  induction chars generalizing unknown with
  | nil => simp [Command.matchShort.go]
  | cons ch more ih =>
    rw [Command.matchShort.go, shortSwitch_planFlags]
    dsimp only
    rw [if_pos (show planFlagsCommand.keepsUnknown = true from rfl), ih, List.append_assoc,
      List.singleton_append]

theorem matchShort_planFlags (w : Text) (st : ParseState) :
    ∃ loose, planFlagsCommand.matchShort w st = .ok { st with loose := loose } := by
  unfold Command.matchShort
  split
  · exact ⟨st.loose, rfl⟩
  · rw [matchShort_go_planFlags]
    unfold Command.matchShort.finish
    split
    · exact ⟨_, rfl⟩
    · exact ⟨st.loose, rfl⟩

theorem processOption_of_long {w : Text} {s : Switch}
    (hs : planFlagsCommand.longSwitch (splitAttached w).1 = some s) (st : ParseState) :
    planFlagsCommand.processOption w st =
      Command.matchLong s (splitAttached w).1 (splitAttached w).2 st := by
  unfold Command.processOption
  rcases hsplit : splitAttached w with ⟨name, attached⟩
  rw [hsplit] at hs
  simp only [hs]

theorem processOption_of_no_role {w : Text} (hrole : flagRole w = none) (st : ParseState) :
    ∃ loose, planFlagsCommand.processOption w st = .ok { st with loose := loose } := by
  have hlong : planFlagsCommand.longSwitch (splitAttached w).1 = none := by
    rw [flagRole_eq, Option.map_eq_none_iff] at hrole
    rw [longSwitch_planFlags, hrole, Option.map_none]
  unfold Command.processOption
  rcases hsplit : splitAttached w with ⟨name, attached⟩
  rw [hsplit] at hlong
  simp only [hlong]
  split
  · exact matchShort_planFlags w st
  · exact ⟨_, rfl⟩

theorem longSwitch_of_role {w : Text} {t : Bool} {x : Option Text}
    (hrole : flagRole w = some (t, x)) :
    planFlagsCommand.longSwitch (splitAttached w).1 = some (flagOption t) ∧
      (splitAttached w).2 = x := by
  rw [flagRole_eq, Option.map_eq_some_iff] at hrole
  obtain ⟨f, hfind, hf⟩ := hrole
  simp only [Prod.mk.injEq] at hf
  rw [longSwitch_planFlags, hfind, ← hf.1]
  exact ⟨rfl, hf.2⟩

theorem processOption_of_joined {w v : Text} {t : Bool} (hrole : flagRole w = some (t, some v))
    (st : ParseState) :
    planFlagsCommand.processOption w st = .ok (Command.record st (flagOption t) (.value v)) := by
  obtain ⟨hlong, hv⟩ := longSwitch_of_role hrole
  rw [processOption_of_long hlong, hv]
  cases t <;> rfl

theorem processOption_of_alone {w : Text} {t : Bool} (hrole : flagRole w = some (t, none))
    (st : ParseState) :
    planFlagsCommand.processOption w st = match st.rest with
      | [] => .error (.needsValue w)
      | v :: rest => .ok (Command.record { st with rest := rest } (flagOption t) (.value v)) := by
  obtain ⟨hlong, hv⟩ := longSwitch_of_role hrole
  rw [processOption_of_long hlong, hv, splitAttached_fst_of_snd w hv]
  cases t <;> rfl

/-! ## The scan -/

/-- The values the parser has given to the two options are the variables found so far. -/
def FlagsAgree (given : List (String × Given)) (acc : PlanVars) : Prop :=
  givenValues given varFilesSwitch.key = acc.files ∧ givenValues given varsSwitch.key = acc.vars

theorem FlagsAgree.record {st : ParseState} {acc : PlanVars} (h : FlagsAgree st.given acc) (t : Bool)
    (v : Text) : FlagsAgree (Command.record st (flagOption t) (.value v)).given (acc.add t v) := by
  obtain ⟨hfiles, hvars⟩ := h
  have hmultiple : (flagOption t).multiple = true := by cases t <;> rfl
  simp only [FlagsAgree, Cli.givenValues_record hmultiple, hfiles, hvars]
  cases t <;> simp [flagOption, PlanVars.add, varsSwitch, varFilesSwitch]

@[simp]
theorem Cli.Command.record_rest (st : ParseState) (s : Switch) (g : Given) :
    (Command.record st s g).rest = st.rest := rfl

/-- How a run of the parser stands to a run of the scan: the same failure, or values that
agree. -/
def FlagRunsRelate : Except UsageError ParseState → Except FlagsError PlanVars → Prop
  | .ok st, .ok acc => FlagsAgree st.given acc
  | .error e, .error e' => e' = .usage e
  | _, _ => False

/-- Read with more fuel than words, the parser's run stands to the scan of the same words. -/
theorem scanOptions_relates (n : Nat) (st : ParseState) (acc : PlanVars)
    (hn : st.rest.length < n) (hagree : FlagsAgree st.given acc) :
    FlagRunsRelate (planFlagsCommand.scanOptions n st) (scanFlagWords acc st.rest) := by
  induction n generalizing st acc with
  | zero => omega
  | succ n ih =>
    obtain ⟨words, loose, given, order⟩ := st
    cases words with
    | nil => exact hagree
    | cons w rest =>
      have hrest : rest.length < n := by simpa using hn
      by_cases hstop : w = "--"
      · subst hstop
        exact hagree
      have hstop' : (w == txt "--") = false := by simpa [txt] using hstop
      rw [Command.scanOptions, scanFlagWords, if_neg hstop]
      dsimp only
      rw [hstop', if_neg Bool.false_ne_true]
      cases hopt : looksLikeOption w with
      | false =>
        rw [flagRole_of_not_option w hopt]
        exact ih _ acc hrest hagree
      | true =>
        rw [if_pos rfl]
        cases hrole : flagRole w with
        | none =>
          obtain ⟨loose', hproc⟩ := processOption_of_no_role hrole
            ⟨rest, loose, given, order⟩
          rw [hproc]
          exact ih _ acc hrest hagree
        | some role =>
          obtain ⟨t, value⟩ := role
          cases value with
          | some v =>
            rw [processOption_of_joined hrole]
            exact ih _ _ hrest (FlagsAgree.record hagree t v)
          | none =>
            rw [processOption_of_alone hrole]
            cases rest with
            | nil => rfl
            | cons v rest' =>
              exact ih _ _ (by simp at hrest ⊢; omega) (FlagsAgree.record hagree t v)

/-- Read as the arguments of the plan-flags command, the words of a flag line give what the
plain scan gives. -/
theorem ofFlags_of_words {flags : Text} {words : List Text} (h : splitWords flags = .ok words) :
    PlanVars.ofFlags flags = scanFlagWords ⟨[], []⟩ words := by
  unfold PlanVars.ofFlags
  rw [h]
  by_cases hempty : words.isEmpty
  · rw [List.isEmpty_iff.1 hempty]
    rfl
  have hrel := scanOptions_relates (2 * words.length + 1) ⟨words, [], [], []⟩ ⟨[], []⟩
    (by simp only; omega) ⟨rfl, rfl⟩
  simp only [Except.mapError, Command.parse, bind, Except.bind, pure, Except.pure, hempty,
    Bool.false_eq_true, if_false]
  revert hrel
  cases planFlagsCommand.scanOptions (2 * words.length + 1) ⟨words, [], [], []⟩ with
  | error e =>
    cases scanFlagWords ⟨[], []⟩ words with
    | error e' =>
      intro hrel
      exact congrArg Except.error hrel.symm
    | ok _ => exact False.elim
  | ok st =>
    cases scanFlagWords ⟨[], []⟩ words with
    | error _ => exact False.elim
    | ok acc =>
      intro hrel
      obtain ⟨hfiles, hvars⟩ := hrel
      show Except.ok ⟨givenValues st.given varFilesSwitch.key, givenValues st.given varsSwitch.key⟩ = .ok acc
      rw [hfiles, hvars]

example :
    (PlanVars.parse "-var-file=prod.tfvars -var 'region=eu-west-1' -var=size=large --var-file extra.tfvars").toOption.map
      (fun p => (p.files, p.vars)) =
      some ([Text.ofString "prod.tfvars", Text.ofString "extra.tfvars"],
        [Text.ofString "region=eu-west-1", Text.ofString "size=large"]) := by
  decide +kernel

end BlockPlan
