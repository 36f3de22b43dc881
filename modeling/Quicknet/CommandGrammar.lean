import Quicknet.CommandArguments

/-! What the parsers of the command line accept: the name of a command and its options in any
order, each once. -/
namespace Quicknet.Cli
open Json (Text text)
open ArgumentScan (scan Item spelled Regular Accepts accepts_nil_iff scan_ok_iff)
open Quicknet.Daemon (isDecimalInteger)

def NetworkSource.item : NetworkSource → Item Text
  | .preset network => ⟨networkFlag, some network.name⟩
  | .custom configFile => ⟨networkConfigFlag, some configFile⟩

def roundItem (numeral : Text) : Item Text := ⟨roundFlag, some numeral⟩

def applyItem : Item Text := ⟨applyFlag, none⟩

def statusItem (value : StatusOption × Text) : Item Text := ⟨value.1.flag, some value.2⟩

/-- The text writes the number in decimal, with any number of leading zeros. -/
def Numeral (t : Text) (n : ℕ) : Prop := isDecimalInteger t = true ∧ Json.decimalValue t = n

section Values

theorem isDecimalInteger_nonempty {t : Text} (h : isDecimalInteger t = true) :
    t.isEmpty = false := by
  unfold isDecimalInteger at h
  rw [Bool.and_eq_true, Bool.not_eq_true'] at h
  exact h.1

theorem parseRound_ok_iff {t : Text} {round : ℕ} :
    parseRound t = .ok round ↔ Numeral t round ∧ 0 < round ∧ round ≤ MAX_UINT64 := by
  unfold parseRound Numeral
  by_cases hd : isDecimalInteger t = true
  · rw [isDecimalInteger_nonempty hd, hd]
    simp only [Bool.not_true, Bool.or_self, Bool.false_eq_true, if_false, true_and]
    split_ifs with hz hm <;> simp only [false_iff, Except.ok.injEq] <;> omega
  · simp [hd]

theorem positiveDecimal_ok_iff {t : Text} {message : String} {n : ℕ} :
    positiveDecimal t message = .ok n ↔ Numeral t n ∧ 0 < n ∧ n ≤ MAX_SAFE_INTEGER := by
  unfold positiveDecimal Numeral
  by_cases hd : isDecimalInteger t = true
  · rw [isDecimalInteger_nonempty hd, hd]
    simp only [Bool.not_true, Bool.or_self, Bool.false_eq_true, if_false, true_and]
    split_ifs with hn <;> simp only [false_iff, Except.ok.injEq] <;> omega
  · simp [hd]

end Values

structure IdentitySpelled (numeral : Text) (identity : IdentityText) : Prop where
  numeral : Numeral numeral identity.chainId
  positive : 0 < identity.chainId
  safe : identity.chainId ≤ MAX_SAFE_INTEGER
  signer : (readFixedHex 20 identity.signer).isSome

section Network

theorem network_flags_ne : networkConfigFlag ≠ networkFlag := by decide

variable {argument : Text} {value : Option Text} {current : Option NetworkSource}

theorem parseNetworkSourceArgument_none_iff :
    parseNetworkSourceArgument argument value current = .ok none ↔
      argument ≠ networkFlag ∧ argument ≠ networkConfigFlag := by
  unfold parseNetworkSourceArgument
  constructor
  · intro h
    by_contra hn
    rw [if_neg hn] at h
    split at h
    · split at h <;> cases h
    · split at h <;> cases h
    · split at h <;> cases h
    · split at h
      · unfold parseRelayerNetworkPreset at h
        split at h <;> cases h
      · cases h
  · intro h
    rw [if_pos h]

/-- A network is selected once, by one of the two options with its value. -/
theorem parseNetworkSourceArgument_some_iff {source : NetworkSource} :
    parseNetworkSourceArgument argument value current = .ok (some source) ↔
      current = none ∧ source.item = ⟨argument, value⟩ := by
  unfold parseNetworkSourceArgument
  constructor
  · intro h
    split at h
    · cases h
    · rename_i hflag
      split at h
      · split at h <;> cases h
      · split at h <;> cases h
      · split at h <;> cases h
      · rename_i given
        refine ⟨rfl, ?_⟩
        -- what is left is the first source, a preset or a file
        split at h
        · rename_i hname
          unfold parseRelayerNetworkPreset at h
          split at h
          · rename_i hpreset
            cases h
            rw [hname, hpreset]
            rfl
          · cases h
        · rename_i hname
          cases h
          have hconfig : argument = networkConfigFlag := by
            by_contra hc
            exact hflag ⟨hname, hc⟩
          rw [hconfig]
          rfl
  · rintro ⟨rfl, hitem⟩
    cases source with
    | preset network =>
      cases network
      cases hitem
      decide
    | custom configFile =>
      cases hitem
      rw [if_neg (fun h => h.2 rfl)]
      exact if_neg network_flags_ne

end Network

theorem source_word_ne (source : NetworkSource) : source.item.word ≠ roundFlag := by
  cases source with
  | preset network => exact (by decide : networkFlag ≠ roundFlag)
  | custom configFile => exact (by decide : networkConfigFlag ≠ roundFlag)

section Steps

variable {argument : Text} {value : Option Text}

theorem roundCommandStep_ok_iff {s t : Option NetworkSource × Option ℕ} {taken : Bool} :
    roundCommandStep s argument value = .ok (t, taken) ↔ taken = true ∧
      ((∃ source : NetworkSource, s.1 = none ∧ source.item = ⟨argument, value⟩ ∧
          t = (some source, s.2)) ∨
        ∃ numeral round, s.2 = none ∧ roundItem numeral = ⟨argument, value⟩ ∧
          parseRound numeral = .ok round ∧ t = (s.1, some round)) := by
  unfold roundCommandStep
  cases hp : parseNetworkSourceArgument argument value s.1 with
  | error code =>
    simp only [bind, Except.bind, reduceCtorEq, false_iff, not_and, not_or, not_exists]
    -- an option of the network is refused, so the argument is none of the round
    have hno : ∀ source, parseNetworkSourceArgument argument value s.1 ≠ .ok source := by
      intro source h
      rw [hp] at h
      cases h
    refine fun _ => ⟨fun source hs hitem => ?_, fun numeral round _ hitem => ?_⟩
    · exact absurd (parseNetworkSourceArgument_some_iff.mpr ⟨hs, hitem⟩) (hno _)
    · have hround : argument = roundFlag := (congrArg Item.word hitem).symm
      refine absurd (parseNetworkSourceArgument_none_iff.mpr ?_) (hno none)
      rw [hround]
      decide
  | ok found =>
    cases found with
    | some source =>
      obtain ⟨hs, hitem⟩ := parseNetworkSourceArgument_some_iff.mp hp
      simp only [bind, Except.bind, pure, Except.pure, Except.ok.injEq, Prod.mk.injEq]
      constructor
      · rintro ⟨rfl, rfl⟩
        exact ⟨rfl, Or.inl ⟨source, hs, hitem, rfl⟩⟩
      · rintro ⟨rfl, ⟨source', _, hitem', rfl⟩ | ⟨numeral, round, _, hitem', _⟩⟩
        · have hp' := parseNetworkSourceArgument_some_iff.mpr ⟨hs, hitem'⟩
          rw [hp] at hp'
          rw [Option.some.inj (Except.ok.inj hp')]
          exact ⟨rfl, rfl⟩
        · exact absurd (congrArg Item.word (hitem.trans hitem'.symm)) (source_word_ne source)
    | none =>
      obtain ⟨hn, hc⟩ := parseNetworkSourceArgument_none_iff.mp hp
      simp only [bind, Except.bind]
      constructor
      · intro h
        split at h
        · rename_i hround
          split at h
          · cases h
          · rename_i hfree
            split at h
            · cases h
            · rename_i numeral
              cases hr : parseRound numeral with
              | error code =>
                rw [hr] at h
                cases h
              | ok round =>
                rw [hr] at h
                cases h
                refine ⟨rfl, Or.inr ⟨numeral, round, by simpa using hfree, ?_, hr, rfl⟩⟩
                rw [hround]
                rfl
        · cases h
      · rintro ⟨rfl, ⟨source, _, hitem, _⟩ | ⟨numeral, round, hs, hitem, hr, rfl⟩⟩
        · have hword := congrArg Item.word hitem
          cases source with
          | preset network => exact absurd hword.symm hn
          | custom configFile => exact absurd hword.symm hc
        · cases hitem
          simp only [if_true, hs, Option.isSome_none, Bool.false_eq_true, if_false, hr]
          rfl

theorem source_word_not_help (source : NetworkSource) :
    ¬ (source.item.word = text "--help" ∨ source.item.word = text "-h") := by
  cases source with
  | preset network => exact (by decide : ¬ (networkFlag = text "--help" ∨ networkFlag = text "-h"))
  | custom configFile =>
    exact (by decide : ¬ (networkConfigFlag = text "--help" ∨ networkConfigFlag = text "-h"))

theorem daemonStep_ok_iff {s t : Option NetworkSource} {taken : Bool} :
    daemonStep s argument value = .ok (t, taken) ↔ taken = true ∧
      ∃ source : NetworkSource, s = none ∧ source.item = ⟨argument, value⟩ ∧ t = some source := by
  unfold daemonStep
  constructor
  · intro h
    split at h
    · cases h
    · cases hp : parseNetworkSourceArgument argument value s with
      | error code =>
        rw [hp] at h
        cases h
      | ok found =>
        rw [hp] at h
        cases found with
        | none => cases h
        | some source =>
          cases h
          obtain ⟨hs, hitem⟩ := parseNetworkSourceArgument_some_iff.mp hp
          exact ⟨rfl, source, hs, hitem, rfl⟩
  · rintro ⟨rfl, source, hs, hitem, rfl⟩
    have hword : argument = source.item.word := (congrArg Item.word hitem).symm
    rw [if_neg (hword ▸ source_word_not_help source),
      parseNetworkSourceArgument_some_iff.mpr ⟨hs, hitem⟩]

theorem syncNonceStep_ok_iff {s t : Option NetworkSource × Bool} {taken : Bool} :
    syncNonceStep s argument value = .ok (t, taken) ↔
      (∃ source : NetworkSource, s.1 = none ∧ source.item = ⟨argument, value⟩ ∧
          t = (some source, s.2) ∧ taken = true) ∨
        s.2 = false ∧ argument = applyFlag ∧ t = (s.1, true) ∧ taken = false := by
  -- no source is spelled with the flag's word
  have happly (source : NetworkSource) : source.item.word ≠ applyFlag := by
    cases source with
    | preset network => exact (by decide : networkFlag ≠ applyFlag)
    | custom configFile => exact (by decide : networkConfigFlag ≠ applyFlag)
  unfold syncNonceStep
  cases hp : parseNetworkSourceArgument argument value s.1 with
  | error code =>
    have hno : ∀ source, parseNetworkSourceArgument argument value s.1 ≠ .ok source := by
      intro source h
      rw [hp] at h
      cases h
    simp only [bind, Except.bind, reduceCtorEq, false_iff, not_or, not_exists, not_and]
    refine ⟨fun source hs hitem => ?_, fun _ hword => ?_⟩
    · exact absurd (parseNetworkSourceArgument_some_iff.mpr ⟨hs, hitem⟩) (hno _)
    · refine absurd (parseNetworkSourceArgument_none_iff.mpr ?_) (hno none)
      rw [hword]
      decide
  | ok found =>
    cases found with
    | some source =>
      obtain ⟨hs, hitem⟩ := parseNetworkSourceArgument_some_iff.mp hp
      simp only [bind, Except.bind, pure, Except.pure, Except.ok.injEq, Prod.mk.injEq]
      constructor
      · rintro ⟨rfl, rfl⟩
        exact Or.inl ⟨source, hs, hitem, rfl, rfl⟩
      · rintro (⟨source', _, hitem', rfl, rfl⟩ | ⟨_, hword, _⟩)
        · rw [parseNetworkSourceArgument_some_iff.mpr ⟨hs, hitem'⟩] at hp
          rw [Option.some.inj (Except.ok.inj hp)]
          exact ⟨rfl, rfl⟩
        · exact absurd ((congrArg Item.word hitem).trans hword) (happly source)
    -- an argument that is no source can only be the flag
    | none =>
      obtain ⟨hn, hc⟩ := parseNetworkSourceArgument_none_iff.mp hp
      simp only [bind, Except.bind]
      constructor
      · intro h
        split at h
        · rename_i hword
          split at h
          · cases h
          · rename_i hfree
            cases h
            exact Or.inr ⟨Bool.eq_false_iff.mpr hfree, hword, rfl, rfl⟩
        · cases h
      · rintro (⟨source, _, hitem, _⟩ | ⟨hfree, rfl, rfl, rfl⟩)
        · have hword := congrArg Item.word hitem
          cases source with
          | preset network => exact absurd hword.symm hn
          | custom configFile => exact absurd hword.symm hc
        · rw [if_pos rfl, hfree]
          rfl

theorem statusOption_iff {option : StatusOption} :
    statusOption argument = some option ↔ argument = option.flag := by
  constructor
  · intro h
    have hflag := List.find?_some h
    exact (beq_iff_eq.mp hflag).symm
  · rintro rfl
    cases option <;> decide

theorem statusStep_ok_iff {values next : List (StatusOption × Text)} {taken : Bool} :
    statusStep values argument value = .ok (next, taken) ↔ taken = true ∧
      ∃ given : StatusOption × Text, statusItem given = ⟨argument, value⟩ ∧
        values.lookup given.1 = none ∧ startsWithDashes given.2 = false ∧
        next = values ++ [given] := by
  unfold statusStep
  constructor
  · intro h
    split at h
    · cases h
    · rename_i option hoption
      split at h
      · cases h
      · rename_i hfree
        split at h
        · cases h
        · rename_i given
          split at h
          · cases h
          · rename_i hdashes
            cases h
            refine ⟨rfl, (option, given), ?_, Option.not_isSome_iff_eq_none.mp hfree,
              Bool.eq_false_iff.mpr hdashes, rfl⟩
            rw [statusOption_iff.mp hoption]
            rfl
  · rintro ⟨rfl, given, hitem, hfree, hdashes, rfl⟩
    cases hitem
    simp only [statusOption_iff.mpr rfl, hfree, hdashes, Option.isSome_none, Bool.false_eq_true,
      if_false]

end Steps

/-- What the options of the status command may hold after those that were given before. -/
structure StatusValues (before more : List (StatusOption × Text)) : Prop where
  fresh : ∀ given ∈ more, before.lookup given.1 = none
  once : (more.map Prod.fst).Nodup
  plain : ∀ given ∈ more, startsWithDashes given.2 = false

section Regular

theorem roundCommandStep_regular : Regular roundCommandStep where
  taken := by
    intro s argument t h
    rcases (roundCommandStep_ok_iff.mp h).2 with ⟨source, _, hitem, _⟩ | ⟨_, _, _, hitem, _⟩
    · cases source <;> cases hitem
    · cases hitem
  alone := by
    intro s argument next next' t h
    exact absurd (roundCommandStep_ok_iff.mp h).1 Bool.false_ne_true

theorem daemonStep_regular : Regular daemonStep where
  taken := by
    intro s argument t h
    obtain ⟨_, source, _, hitem, _⟩ := daemonStep_ok_iff.mp h
    cases source <;> cases hitem
  alone := by
    intro s argument next next' t h
    exact absurd (daemonStep_ok_iff.mp h).1 Bool.false_ne_true

theorem syncNonceStep_regular : Regular syncNonceStep where
  taken := by
    intro s argument t h
    rcases syncNonceStep_ok_iff.mp h with ⟨source, _, hitem, _⟩ | ⟨_, _, _, ht⟩
    · cases source <;> cases hitem
    · cases ht
  alone := by
    intro s argument next next' t h
    rcases syncNonceStep_ok_iff.mp h with ⟨_, _, _, _, ht⟩ | h
    · cases ht
    · exact syncNonceStep_ok_iff.mpr (Or.inr h)

theorem statusStep_regular : Regular statusStep where
  taken := by
    intro s argument t h
    obtain ⟨_, given, hitem, _⟩ := statusStep_ok_iff.mp h
    cases hitem
  alone := by
    intro s argument next next' t h
    exact absurd (statusStep_ok_iff.mp h).1 Bool.false_ne_true

end Regular

section Options

variable {items : List (Item Text)} {source : NetworkSource} {round : ℕ}

theorem item_eq (i : Item Text) : (⟨i.word, i.value⟩ : Item Text) = i := rfl

theorem source_value (source : NetworkSource) : source.item.value.isSome = true := by
  cases source <;> rfl

theorem accepts_round_full {a : NetworkSource} {b : ℕ} {t : Option NetworkSource × Option ℕ} :
    Accepts roundCommandStep (some a, some b) items t ↔ items = [] ∧ t = (some a, some b) := by
  constructor
  · intro h
    cases h with
    | nil => exact ⟨rfl, rfl⟩
    | cons head tail =>
      rcases (roundCommandStep_ok_iff.mp head).2 with ⟨_, hs, _⟩ | ⟨_, _, hs, _⟩ <;> cases hs
  · rintro ⟨rfl, rfl⟩
    exact .nil _

theorem accepts_round_rest {a : NetworkSource} :
    Accepts roundCommandStep (some a, none) items (some source, some round) ↔
      a = source ∧ ∃ numeral, parseRound numeral = .ok round ∧ items = [roundItem numeral] := by
  constructor
  · intro h
    cases h with
    | cons head tail =>
      rcases (roundCommandStep_ok_iff.mp head).2 with
        ⟨_, hs, _⟩ | ⟨numeral, r, _, hitem, hr, rfl⟩
      · cases hs
      · obtain ⟨hitems, ht⟩ := accepts_round_full.mp tail
        cases ht
        rw [item_eq] at hitem
        exact ⟨rfl, numeral, hr, by rw [hitems, hitem]⟩
  · rintro ⟨rfl, numeral, hr, rfl⟩
    refine .cons ?_ (accepts_round_full.mpr ⟨rfl, rfl⟩)
    exact roundCommandStep_ok_iff.mpr ⟨rfl, Or.inr ⟨numeral, round, rfl, rfl, hr, rfl⟩⟩

theorem accepts_source_rest {b : ℕ} :
    Accepts roundCommandStep (none, some b) items (some source, some round) ↔
      b = round ∧ items = [source.item] := by
  constructor
  · intro h
    cases h with
    | cons head tail =>
      rcases (roundCommandStep_ok_iff.mp head).2 with ⟨found, _, hitem, rfl⟩ | ⟨_, _, hs, _⟩
      · obtain ⟨hitems, ht⟩ := accepts_round_full.mp tail
        cases ht
        rw [item_eq] at hitem
        exact ⟨rfl, by rw [hitems, hitem]⟩
      · cases hs
  · rintro ⟨rfl, rfl⟩
    refine .cons ?_ (accepts_round_full.mpr ⟨rfl, rfl⟩)
    exact roundCommandStep_ok_iff.mpr ⟨source_value source, Or.inl ⟨source, rfl, rfl, rfl⟩⟩

theorem accepts_round_iff :
    Accepts roundCommandStep (none, none) items (some source, some round) ↔
      ∃ numeral, parseRound numeral = .ok round ∧ items.Perm [source.item, roundItem numeral] := by
  constructor
  · intro h
    cases h with
    | cons head tail =>
      rcases (roundCommandStep_ok_iff.mp head).2 with
        ⟨found, _, hitem, rfl⟩ | ⟨numeral, r, _, hitem, hr, rfl⟩
      · obtain ⟨rfl, numeral, hr, rfl⟩ := accepts_round_rest.mp tail
        rw [item_eq] at hitem
        exact ⟨numeral, hr, List.perm_pair.mpr (Or.inl (by rw [hitem]))⟩
      · obtain ⟨rfl, rfl⟩ := accepts_source_rest.mp tail
        rw [item_eq] at hitem
        exact ⟨numeral, hr, List.perm_pair.mpr (Or.inr (by rw [hitem]))⟩
  · rintro ⟨numeral, hr, hperm⟩
    rcases List.perm_pair.mp hperm with rfl | rfl
    · refine .cons ?_ (accepts_round_rest.mpr ⟨rfl, numeral, hr, rfl⟩)
      exact roundCommandStep_ok_iff.mpr ⟨source_value source, Or.inl ⟨source, rfl, rfl, rfl⟩⟩
    · refine .cons ?_ (accepts_source_rest.mpr ⟨rfl, rfl⟩)
      exact roundCommandStep_ok_iff.mpr ⟨rfl, Or.inr ⟨numeral, round, rfl, rfl, hr, rfl⟩⟩

theorem accepts_daemon_iff :
    Accepts daemonStep none items (some source) ↔ items = [source.item] := by
  constructor
  · intro h
    cases h with
    | cons head tail =>
      obtain ⟨_, found, _, hitem, rfl⟩ := daemonStep_ok_iff.mp head
      cases tail with
      | nil =>
        rw [item_eq] at hitem
        rw [hitem]
      | cons head tail =>
        obtain ⟨_, _, hs, _⟩ := daemonStep_ok_iff.mp head
        cases hs
  · rintro rfl
    refine .cons ?_ (.nil _)
    exact daemonStep_ok_iff.mpr ⟨source_value source, source, rfl, rfl, rfl⟩

theorem applied_item {i : Item Text} (hword : i.word = applyFlag)
    (hvalue : i.value.isSome = false) : i = applyItem := by
  have hnone : i.value = none := Option.not_isSome_iff_eq_none.mp (Bool.eq_false_iff.mp hvalue)
  rw [← item_eq i, hword, hnone]
  rfl

theorem accepts_apply_iff {a : NetworkSource} {apply₀ apply : Bool} :
    Accepts syncNonceStep (some a, apply₀) items (some source, apply) ↔ a = source ∧
      ((items = [] ∧ apply = apply₀) ∨ items = [applyItem] ∧ apply₀ = false ∧ apply = true) := by
  constructor
  · intro h
    cases h with
    | nil => exact ⟨rfl, Or.inl ⟨rfl, rfl⟩⟩
    | @cons _ _ _ i rest head tail =>
      rcases syncNonceStep_ok_iff.mp head with ⟨_, hs, _⟩ | ⟨hfree, hword, rfl, hvalue⟩
      · cases hs
      · obtain rfl : i = applyItem := applied_item hword hvalue
        cases tail with
        | nil => exact ⟨rfl, Or.inr ⟨rfl, hfree, rfl⟩⟩
        | cons head tail =>
          rcases syncNonceStep_ok_iff.mp head with ⟨_, hs, _⟩ | ⟨hs, _⟩ <;> cases hs
  · rintro ⟨rfl, ⟨rfl, rfl⟩ | ⟨rfl, rfl, rfl⟩⟩
    · exact .nil _
    · exact .cons (syncNonceStep_ok_iff.mpr (Or.inr ⟨rfl, rfl, rfl, rfl⟩)) (.nil _)

theorem accepts_syncNonce_iff {apply : Bool} :
    Accepts syncNonceStep (none, false) items (some source, apply) ↔
      items.Perm (source.item :: if apply then [applyItem] else []) := by
  have hsource (applied : Bool) : syncNonceStep (none, applied) source.item.word source.item.value =
      .ok ((some source, applied), source.item.value.isSome) :=
    syncNonceStep_ok_iff.mpr (Or.inl ⟨source, rfl, rfl, rfl, source_value source⟩)
  have happly (a : Option NetworkSource) :
      syncNonceStep (a, false) applyFlag none = .ok ((a, true), false) :=
    syncNonceStep_ok_iff.mpr (Or.inr ⟨rfl, rfl, rfl, rfl⟩)
  constructor
  · intro h
    cases h with
    | @cons _ _ _ i rest head tail =>
      rcases syncNonceStep_ok_iff.mp head with ⟨found, _, hitem, rfl, _⟩ | ⟨_, hword, rfl, hvalue⟩
      · rw [item_eq] at hitem
        obtain ⟨rfl, ⟨rfl, rfl⟩ | ⟨rfl, _, rfl⟩⟩ := accepts_apply_iff.mp tail
        · rw [hitem]
          rfl
        · rw [hitem]
          rfl
      · obtain rfl : i = applyItem := applied_item hword hvalue
        -- the flag was given, so what follows is the network alone
        cases tail with
        | cons head tail =>
          rcases syncNonceStep_ok_iff.mp head with ⟨found, _, hitem, rfl, _⟩ | ⟨hs, _⟩
          · rw [item_eq] at hitem
            obtain ⟨rfl, ⟨rfl, rfl⟩ | ⟨_, hs, _⟩⟩ := accepts_apply_iff.mp tail
            · rw [hitem]
              exact List.Perm.swap _ _ _
            · cases hs
          · cases hs
  · intro hperm
    cases apply with
    | false =>
      rw [if_neg Bool.false_ne_true, List.perm_singleton] at hperm
      rw [hperm]
      exact .cons (hsource false) (.nil _)
    | true =>
      rw [if_pos rfl, List.perm_pair] at hperm
      rcases hperm with rfl | rfl
      · exact .cons (hsource false) (.cons (happly _) (.nil _))
      · exact .cons (happly _) (.cons (hsource true) (.nil _))

theorem accepts_status_iff {before after : List (StatusOption × Text)} :
    Accepts statusStep before items after ↔
      ∃ more, after = before ++ more ∧ items = more.map statusItem ∧ StatusValues before more := by
  constructor
  -- each item that is accepted adds one option, which the state does not hold yet
  · intro h
    induction h with
    | nil s => exact ⟨[], (List.append_nil s).symm, rfl, by simp, by simp, by simp⟩
    | @cons s t u i rest head tail ih =>
      obtain ⟨_, given, hitem, hfree, hplain, rfl⟩ := statusStep_ok_iff.mp head
      obtain ⟨more, rfl, rfl, hmore⟩ := ih
      have hfresh (other : StatusOption × Text) (h : other ∈ more) :
          s.lookup other.1 = none ∧ other.1 ≠ given.1 := by
        have hboth := hmore.fresh other h
        rw [List.lookup_append, Option.or_eq_none_iff] at hboth
        refine ⟨hboth.1, fun he => ?_⟩
        have hgiven := hboth.2
        rw [he] at hgiven
        simp at hgiven
      refine ⟨given :: more, by simp, by rw [item_eq] at hitem; rw [← hitem]; rfl, ?_, ?_, ?_⟩
      · exact List.forall_mem_cons.mpr ⟨hfree, fun other h => (hfresh other h).1⟩
      · rw [List.map_cons, List.nodup_cons]
        refine ⟨fun hin => ?_, hmore.once⟩
        obtain ⟨other, hother, he⟩ := List.mem_map.mp hin
        exact (hfresh other hother).2 he
      · exact List.forall_mem_cons.mpr ⟨hplain, hmore.plain⟩
  · rintro ⟨more, rfl, rfl, hmore⟩
    -- the options are read one after another, each after those before it
    induction more generalizing before with
    | nil =>
      rw [List.append_nil]
      exact .nil before
    | cons given more ih =>
      obtain ⟨hnew, honce⟩ := List.nodup_cons.mp hmore.once
      have hstep : statusStep before given.1.flag (some given.2) =
          .ok (before ++ [given], true) := statusStep_ok_iff.mpr
        ⟨rfl, given, rfl, hmore.fresh given List.mem_cons_self, hmore.plain given List.mem_cons_self,
          rfl⟩
      have hafter : before ++ given :: more = before ++ [given] ++ more :=
        List.append_cons before given more
      refine .cons hstep ?_
      rw [hafter]
      refine ih ⟨fun other hother => ?_, honce, fun other hother => ?_⟩
      · have hne : other.1 ≠ given.1 := fun he => hnew (he ▸ List.mem_map_of_mem hother)
        rw [List.lookup_append, hmore.fresh other (List.mem_cons_of_mem _ hother)]
        simp [hne]
      · exact hmore.plain other (List.mem_cons_of_mem _ hother)

end Options

section Lookup

variable {κ ν : Type} [DecidableEq κ] {rows rows' : List (κ × ν)}

theorem mem_iff_lookup (h : (rows.map Prod.fst).Nodup) {k : κ} {v : ν} :
    (k, v) ∈ rows ↔ rows.lookup k = some v := by
  induction rows with
  | nil => simp
  | cons row rows ih =>
    obtain ⟨k', v'⟩ := row
    obtain ⟨hnew, hrest⟩ := List.nodup_cons.mp h
    rw [List.lookup_cons, List.mem_cons, ih hrest]
    by_cases hk : k = k'
    · subst hk
      have hnone : rows.lookup k ≠ some v := fun hv => hnew
        (List.mem_map.mpr ⟨(k, v), (ih hrest).mpr hv, rfl⟩)
      simp [hnone, eq_comm]
    · have hne : (k == k') = false := beq_eq_false_iff_ne.mpr hk
      simp [hk, hne]

theorem perm_of_lookup (h : (rows.map Prod.fst).Nodup) (h' : (rows'.map Prod.fst).Nodup)
    (heq : ∀ k, rows.lookup k = rows'.lookup k) : rows.Perm rows' := by
  rw [List.perm_ext_iff_of_nodup h.of_map h'.of_map]
  intro row
  rw [mem_iff_lookup (k := row.1) (v := row.2) h, mem_iff_lookup h', heq]

theorem lookup_of_perm (h' : (rows'.map Prod.fst).Nodup) (hperm : rows.Perm rows') (k : κ) :
    rows.lookup k = rows'.lookup k := by
  have h : (rows.map Prod.fst).Nodup := (hperm.map Prod.fst).nodup_iff.mpr h'
  apply Option.ext
  intro v
  rw [← mem_iff_lookup h, ← mem_iff_lookup h', hperm.mem_iff]

end Lookup

/-- The options of an identity, as the command line gives them. -/
def identityValues (numeral : Text) (identity : IdentityText) (source : Text) :
    List (StatusOption × Text) :=
  [(.chainId, numeral), (.signer, identity.signer), (.source, source)]

/-- The options of the status command that give a configuration, in some order. -/
def StatusConfig.Values : StatusConfig → List (StatusOption × Text) → Prop
  | .journal identity, values => ∃ numeral, IdentitySpelled numeral identity ∧
      values.Perm (identityValues numeral identity (text "journal"))
  | .daemonSnapshot identity maxAgeMs, values => ∃ numeral, IdentitySpelled numeral identity ∧
      ((maxAgeMs = DEFAULT_STATUS_MAX_AGE_MS ∧
          values.Perm (identityValues numeral identity (text "daemon-snapshot"))) ∨
        ∃ age, Numeral age maxAgeMs ∧ 0 < maxAgeMs ∧ maxAgeMs ≤ MAX_SAFE_INTEGER ∧
          values.Perm ((.maxAgeMs, age) ::
            identityValues numeral identity (text "daemon-snapshot")))

/-- The options of a command, in some order. -/
def CommandArguments.Options : CommandArguments → List (Item Text) → Prop
  | .importRound source round, items => ∃ numeral, Numeral numeral round ∧ 0 < round ∧
      round ≤ MAX_UINT64 ∧ items.Perm [source.item, roundItem numeral]
  | .importWhenAvailable source round, items => ∃ numeral, Numeral numeral round ∧ 0 < round ∧
      round ≤ MAX_UINT64 ∧ items.Perm [source.item, roundItem numeral]
  | .daemon source, items => items = [source.item]
  | .syncNonce source apply, items => items.Perm (source.item :: if apply then [applyItem] else [])
  | .status config, items => ∃ values, items = values.map statusItem ∧ config.Values values
  | .daemonHelp, _ => False
  | .help, _ => False

def CommandArguments.name : CommandArguments → Text
  | .importRound _ _ => text "import"
  | .importWhenAvailable _ _ => text "import-when-available"
  | .daemon _ => text "daemon"
  | .syncNonce _ _ => text "sync-nonce"
  | .status _ => text "status"
  | .daemonHelp => text "daemon"
  | .help => text "help"

/-- The command lines of a command. -/
def CommandArguments.Spelled (command : CommandArguments) (args : List Text) : Prop :=
  (helpRequested args = true ∧
      command = if args.head? = some (text "daemon") then .daemonHelp else .help) ∨
    helpRequested args = false ∧
      ((command = .help ∧ (args = [] ∨ args.head? = some (text "help"))) ∨
        ∃ items, args = command.name :: spelled items ∧ command.Options items)

section Status

variable {values : List (StatusOption × Text)}

theorem nodup_identityValues (numeral : Text) (identity : IdentityText) (source : Text) :
    ((identityValues numeral identity source).map Prod.fst).Nodup :=
  (by decide : [StatusOption.chainId, .signer, .source].Nodup)

theorem nodup_aged (age numeral : Text) (identity : IdentityText) (source : Text) :
    ((((.maxAgeMs, age) : StatusOption × Text) ::
      identityValues numeral identity source).map Prod.fst).Nodup :=
  (by decide : [StatusOption.maxAgeMs, .chainId, .signer, .source].Nodup)

/-- A configuration is read from the options that were given. -/
theorem statusConfigOf_ok_iff {command : CommandArguments} :
    statusConfigOf values = .ok command ↔ ∃ config chainId signer source,
      command = .status config ∧ values.lookup .chainId = some chainId ∧
        values.lookup .signer = some signer ∧ values.lookup .source = some source ∧
        parseStatusConfig ⟨chainId, signer, source, values.lookup .maxAgeMs⟩ = .ok config := by
  unfold statusConfigOf
  constructor
  · intro h
    split at h
    · cases h
    · cases h
    · cases h
    · rename_i chainId signer source hc hsi hso
      split at h
      · cases h
      · rename_i config hconfig
        cases h
        exact ⟨config, chainId, signer, source, rfl, hc, hsi, hso, hconfig⟩
  · rintro ⟨config, chainId, signer, source, rfl, hc, hsi, hso, hconfig⟩
    simp only [hc, hsi, hso, hconfig]

theorem parseStatusConfig_ok_iff {input : StatusConfigInput} {config : StatusConfig} :
    parseStatusConfig input = .ok config ↔ ∃ identity : IdentityText,
      input.signer = identity.signer ∧ IdentitySpelled input.chainId identity ∧
        ((input.source = text "journal" ∧ input.maxAgeMs = none ∧ config = .journal identity) ∨
          input.source = text "daemon-snapshot" ∧
            ((input.maxAgeMs = none ∧ config = .daemonSnapshot identity DEFAULT_STATUS_MAX_AGE_MS) ∨
              ∃ age n, input.maxAgeMs = some age ∧ Numeral age n ∧ 0 < n ∧ n ≤ MAX_SAFE_INTEGER ∧
                config = .daemonSnapshot identity n)) := by
  obtain ⟨chainId, signer, source, maxAgeMs⟩ := input
  unfold parseStatusConfig
  constructor
  -- the checks in the order of the code: chain ID, signer, source, age
  · intro h
    cases hc : positiveDecimal chainId "Invalid status chain ID." with
    | error message =>
      rw [hc] at h
      cases h
    | ok n =>
      obtain ⟨hn, hpos, hsafe⟩ := positiveDecimal_ok_iff.mp hc
      simp only [hc, bind, Except.bind] at h
      split at h
      · cases h
      · rename_i hsigner
        have hidentity : IdentitySpelled chainId ⟨n, signer⟩ :=
          ⟨hn, hpos, hsafe, Option.isSome_iff_ne_none.mpr fun hnone =>
            hsigner (Option.isNone_iff_eq_none.mpr hnone)⟩
        refine ⟨⟨n, signer⟩, rfl, hidentity, ?_⟩
        split at h
        · rename_i hjournal
          split at h
          · cases h
          · rename_i hage
            cases h
            exact Or.inl ⟨hjournal, Option.not_isSome_iff_eq_none.mp hage, rfl⟩
        · split at h
          · cases h
          · rename_i hsnapshot
            refine Or.inr ⟨not_not.mp hsnapshot, ?_⟩
            cases maxAgeMs with
            | none =>
              cases h
              exact Or.inl ⟨rfl, rfl⟩
            | some age =>
              cases ha : positiveDecimal age "Invalid daemon snapshot maximum age." with
              | error message =>
                simp only [ha, reduceCtorEq] at h
              | ok m =>
                simp only [ha] at h
                cases h
                obtain ⟨hm, hmpos, hmsafe⟩ := positiveDecimal_ok_iff.mp ha
                exact Or.inr ⟨age, m, rfl, hm, hmpos, hmsafe, rfl⟩
  · rintro ⟨⟨n, signer⟩, rfl, hidentity, hsource⟩
    have hc : positiveDecimal chainId "Invalid status chain ID." = .ok n :=
      positiveDecimal_ok_iff.mpr ⟨hidentity.numeral, hidentity.positive, hidentity.safe⟩
    have hsigner : (readFixedHex 20 signer).isNone = false := by
      rw [← Option.not_isSome, hidentity.signer]
      rfl
    have hne : text "daemon-snapshot" ≠ text "journal" := by decide
    simp only [hc, bind, Except.bind, hsigner, Bool.false_eq_true, if_false]
    rcases hsource with ⟨rfl, rfl, rfl⟩ | ⟨rfl, ⟨rfl, rfl⟩ | ⟨age, m, rfl, hm, hmpos, hmsafe, rfl⟩⟩
    · rfl
    · rw [if_neg hne, if_neg (not_not.mpr rfl)]
      rfl
    · have ha : positiveDecimal age "Invalid daemon snapshot maximum age." = .ok m :=
        positiveDecimal_ok_iff.mpr ⟨hm, hmpos, hmsafe⟩
      rw [if_neg hne, if_neg (not_not.mpr rfl)]
      simp only [ha]
      rfl

theorem numeral_plain {t : Text} {n : ℕ} (h : Numeral t n) : startsWithDashes t = false := by
  have hall := h.1
  unfold isDecimalInteger at hall
  rw [Bool.and_eq_true] at hall
  apply decide_eq_false
  intro hdashes
  have hmem : Json.unit '-' ∈ t := hdashes.subset (by decide)
  have hdigit := List.all_eq_true.mp hall.2 _ hmem
  revert hdigit
  decide

theorem signer_plain {t : Text} (h : (readFixedHex 20 t).isSome) : startsWithDashes t = false := by
  unfold readFixedHex at h
  split at h
  · rename_i hhex
    apply decide_eq_false
    intro hdashes
    have heq := List.prefix_of_prefix_length_le hdashes hhex.2 (by decide)
    revert heq
    decide
  · cases h

theorem identityValues_plain {numeral : Text} {identity : IdentityText} {source : Text}
    (h : IdentitySpelled numeral identity) (hsource : startsWithDashes source = false) :
    ∀ given ∈ identityValues numeral identity source, startsWithDashes given.2 = false := by
  intro given hgiven
  simp only [identityValues, List.mem_cons, List.not_mem_nil, or_false] at hgiven
  rcases hgiven with rfl | rfl | rfl
  · exact numeral_plain h.numeral
  · exact signer_plain h.signer
  · exact hsource

theorem statusValues_of_perm {given : List (StatusOption × Text)} (hperm : values.Perm given)
    (honce : (given.map Prod.fst).Nodup)
    (hplain : ∀ value ∈ given, startsWithDashes value.2 = false) : StatusValues [] values where
  fresh := fun _ _ => rfl
  once := (hperm.map Prod.fst).nodup_iff.mpr honce
  plain := fun value h => hplain value (hperm.mem_iff.mp h)

theorem statusValues_iff {config : StatusConfig} :
    StatusValues [] values ∧ statusConfigOf values = .ok (.status config) ↔
      config.Values values := by
  constructor
  · rintro ⟨hvalues, hconfig⟩
    obtain ⟨config', numeral, signer, source, heq, hc, hsi, hso, hparse⟩ :=
      statusConfigOf_ok_iff.mp hconfig
    cases heq
    obtain ⟨identity, rfl, hidentity, hsource⟩ := parseStatusConfig_ok_iff.mp hparse
    -- lists without repeats that agree on every option are permutations of each other
    rcases hsource with ⟨rfl, hage, rfl⟩ | ⟨rfl, ⟨hage, rfl⟩ | ⟨age, n, hage, hn, hpos, hsafe, rfl⟩⟩
    · refine ⟨numeral, hidentity, perm_of_lookup hvalues.once (nodup_identityValues _ _ _) ?_⟩
      intro option
      cases option
      · exact hc
      · exact hsi
      · exact hso
      · exact hage
    · refine ⟨numeral, hidentity,
        Or.inl ⟨rfl, perm_of_lookup hvalues.once (nodup_identityValues _ _ _) ?_⟩⟩
      intro option
      cases option
      · exact hc
      · exact hsi
      · exact hso
      · exact hage
    · refine ⟨numeral, hidentity,
        Or.inr ⟨age, hn, hpos, hsafe, perm_of_lookup hvalues.once (nodup_aged _ _ _ _) ?_⟩⟩
      intro option
      cases option
      · exact hc
      · exact hsi
      · exact hso
      · exact hage
  · intro hconfig
    cases config with
    | journal identity =>
      obtain ⟨numeral, hidentity, hperm⟩ := hconfig
      have hlookup := lookup_of_perm (nodup_identityValues _ _ _) hperm
      refine ⟨statusValues_of_perm hperm (nodup_identityValues _ _ _)
        (identityValues_plain hidentity (by decide)), ?_⟩
      refine statusConfigOf_ok_iff.mpr ⟨_, numeral, identity.signer, text "journal", rfl,
        hlookup .chainId, hlookup .signer, hlookup .source, ?_⟩
      exact parseStatusConfig_ok_iff.mpr
        ⟨identity, rfl, hidentity, Or.inl ⟨rfl, hlookup .maxAgeMs, rfl⟩⟩
    | daemonSnapshot identity maxAgeMs =>
      obtain ⟨numeral, hidentity, ⟨rfl, hperm⟩ | ⟨age, hn, hpos, hsafe, hperm⟩⟩ := hconfig
      · have hlookup := lookup_of_perm (nodup_identityValues _ _ _) hperm
        refine ⟨statusValues_of_perm hperm (nodup_identityValues _ _ _)
          (identityValues_plain hidentity (by decide)), ?_⟩
        refine statusConfigOf_ok_iff.mpr ⟨_, numeral, identity.signer, text "daemon-snapshot", rfl,
          hlookup .chainId, hlookup .signer, hlookup .source, ?_⟩
        exact parseStatusConfig_ok_iff.mpr
          ⟨identity, rfl, hidentity, Or.inr ⟨rfl, Or.inl ⟨hlookup .maxAgeMs, rfl⟩⟩⟩
      · have hlookup := lookup_of_perm (nodup_aged _ _ _ _) hperm
        refine ⟨statusValues_of_perm hperm (nodup_aged _ _ _ _) (List.forall_mem_cons.mpr
          ⟨numeral_plain hn, identityValues_plain hidentity (by decide)⟩), ?_⟩
        refine statusConfigOf_ok_iff.mpr ⟨_, numeral, identity.signer, text "daemon-snapshot", rfl,
          hlookup .chainId, hlookup .signer, hlookup .source, ?_⟩
        exact parseStatusConfig_ok_iff.mpr ⟨identity, rfl, hidentity,
          Or.inr ⟨rfl, Or.inr ⟨age, maxAgeMs, hlookup .maxAgeMs, hn, hpos, hsafe, rfl⟩⟩⟩

end Status

section Commands

variable {args : List Text}

theorem parseRoundCommandOptions_ok_iff {source : NetworkSource} {round : ℕ} :
    parseRoundCommandOptions args = .ok ⟨source, round⟩ ↔ ∃ items, args = spelled items ∧
      ∃ numeral, Numeral numeral round ∧ 0 < round ∧ round ≤ MAX_UINT64 ∧
        items.Perm [source.item, roundItem numeral] := by
  have hscan : parseRoundCommandOptions args = .ok ⟨source, round⟩ ↔
      scan roundCommandStep (none, none) args = .ok (some source, some round) := by
    unfold parseRoundCommandOptions
    cases scan roundCommandStep (none, none) args with
    | error code => simp [bind, Except.bind]
    | ok s =>
      obtain ⟨found, given⟩ := s
      cases found <;> cases given <;> simp [bind, Except.bind, pure, Except.pure]
  rw [hscan, scan_ok_iff roundCommandStep_regular]
  simp only [accepts_round_iff, parseRound_ok_iff, and_assoc]

theorem parseDaemonArguments_ok_iff {command : CommandArguments}
    (hhelp : helpRequested args = false) :
    parseDaemonArguments args = .ok command ↔
      ∃ source, command = .daemon source ∧ args = spelled [NetworkSource.item source] := by
  unfold helpRequested at hhelp
  simp only [Bool.or_eq_false_iff, List.contains_eq_mem, decide_eq_false_iff_not] at hhelp
  unfold parseDaemonArguments
  constructor
  · intro h
    split at h
    · -- help is an argument, which was excluded
      rename_i herror
      obtain ⟨t, word, next, hword, hstep⟩ := ArgumentScan.scan_error herror
      unfold daemonStep at hstep
      split at hstep
      · rename_i hw
        rcases hw with rfl | rfl
        · exact absurd hword hhelp.1
        · exact absurd hword hhelp.2
      · split at hstep <;> cases hstep
    · cases h
    · cases h
    · rename_i source hscan
      cases h
      obtain ⟨items, hargs, haccepts⟩ := (scan_ok_iff daemonStep_regular).mp hscan
      exact ⟨source, rfl, by rw [hargs, accepts_daemon_iff.mp haccepts]⟩
  · rintro ⟨source, rfl, rfl⟩
    rw [(accepts_daemon_iff.mpr rfl).scan daemonStep_regular]

theorem parseSyncNonceArguments_ok_iff {command : CommandArguments} :
    parseSyncNonceArguments args = .ok command ↔ ∃ source apply, command = .syncNonce source apply ∧
      ∃ items, args = spelled items ∧
        items.Perm (NetworkSource.item source :: if apply then [applyItem] else []) := by
  have hscan : parseSyncNonceArguments args = .ok command ↔
      ∃ source apply, command = .syncNonce source apply ∧
        scan syncNonceStep (none, false) args = .ok (some source, apply) := by
    unfold parseSyncNonceArguments
    cases scan syncNonceStep (none, false) args with
    | error code => simp [bind, Except.bind]
    | ok s =>
      obtain ⟨found, given⟩ := s
      cases found <;> simp [bind, Except.bind, pure, Except.pure, eq_comm]
  simp only [hscan, scan_ok_iff syncNonceStep_regular, accepts_syncNonce_iff]

theorem parseStatusArguments_ok_iff {command : CommandArguments} :
    parseStatusArguments args = .ok command ↔ ∃ config, command = .status config ∧
      ∃ values, args = spelled (values.map statusItem) ∧ StatusConfig.Values config values := by
  have hscan : parseStatusArguments args = .ok command ↔
      ∃ values, scan statusStep [] args = .ok values ∧ statusConfigOf values = .ok command := by
    unfold parseStatusArguments
    cases scan statusStep [] args with
    | error code => simp [bind, Except.bind]
    | ok values => simp [bind, Except.bind]
  rw [hscan]
  constructor
  · rintro ⟨values, hvalues, hconfig⟩
    obtain ⟨items, rfl, haccepts⟩ := (scan_ok_iff statusStep_regular).mp hvalues
    obtain ⟨more, rfl, rfl, hmore⟩ := accepts_status_iff.mp haccepts
    obtain ⟨config, _, _, _, rfl, _⟩ := statusConfigOf_ok_iff.mp hconfig
    exact ⟨config, rfl, _, rfl, statusValues_iff.mp ⟨hmore, hconfig⟩⟩
  · rintro ⟨config, rfl, values, rfl, hvalues⟩
    obtain ⟨hplain, hconfig⟩ := statusValues_iff.mpr hvalues
    refine ⟨values, ?_, hconfig⟩
    apply (scan_ok_iff statusStep_regular).mpr
    exact ⟨_, rfl, accepts_status_iff.mpr ⟨values, rfl, rfl, hplain⟩⟩

theorem parseImportArguments_ok_iff {command : CommandArguments} :
    parseImportArguments args = .ok command ↔ ∃ source round, command = .importRound source round ∧
      ∃ items, args = spelled items ∧ CommandArguments.Options (.importRound source round) items := by
  unfold parseImportArguments
  constructor
  · intro h
    cases hp : parseRoundCommandOptions args with
    | error code => simp [hp, bind, Except.bind] at h
    | ok parsed =>
      rw [hp] at h
      cases h
      exact ⟨parsed.source, parsed.round, rfl, parseRoundCommandOptions_ok_iff.mp hp⟩
  · rintro ⟨source, round, rfl, hitems⟩
    rw [parseRoundCommandOptions_ok_iff.mpr hitems]
    rfl

theorem parseImportWhenAvailableArguments_ok_iff {command : CommandArguments} :
    parseImportWhenAvailableArguments args = .ok command ↔
      ∃ source round, command = .importWhenAvailable source round ∧ ∃ items, args = spelled items ∧
        CommandArguments.Options (.importWhenAvailable source round) items := by
  unfold parseImportWhenAvailableArguments
  constructor
  · intro h
    cases hp : parseRoundCommandOptions args with
    | error code => simp [hp, bind, Except.bind] at h
    | ok parsed =>
      rw [hp] at h
      cases h
      exact ⟨parsed.source, parsed.round, rfl, parseRoundCommandOptions_ok_iff.mp hp⟩
  · rintro ⟨source, round, rfl, hitems⟩
    rw [parseRoundCommandOptions_ok_iff.mpr hitems]
    rfl

theorem helpRequested_rest {word : Text} {rest : List Text}
    (h : helpRequested (word :: rest) = false) : helpRequested rest = false := by
  simp only [helpRequested, Bool.or_eq_false_iff, List.contains_cons] at h ⊢
  exact ⟨h.1.2, h.2.2⟩

/-- A command line is accepted exactly where it spells the command. -/
theorem parseCommandArguments_iff_spelled (args : List Text) (command : CommandArguments) :
    parseCommandArguments args = .ok command ↔ command.Spelled args := by
  unfold parseCommandArguments CommandArguments.Spelled
  -- a help flag anywhere goes before every other reading
  cases hhelp : helpRequested args with
  | true =>
    simp only [if_true, Except.ok.injEq, true_and, Bool.true_eq_false, false_and, or_false]
    exact eq_comm
  | false =>
    simp only [Bool.false_eq_true, if_false, false_and, false_or, true_and]
    cases args with
    | nil =>
      constructor
      · intro h
        cases h
        exact Or.inl ⟨rfl, Or.inl rfl⟩
      · rintro (⟨rfl, _⟩ | ⟨items, hargs, _⟩)
        · rfl
        · cases hargs
    | cons word rest =>
      have hrest := helpRequested_rest hhelp
      constructor
      · intro h
        dsimp only at h
        split_ifs at h with h1 h2 h3 h4 h5 h6
        · cases h
          exact Or.inl ⟨rfl, Or.inr (congrArg some h1)⟩
        · obtain ⟨source, round, rfl, items, rfl, hitems⟩ := parseImportArguments_ok_iff.mp h
          exact Or.inr ⟨items, congrArg (· :: _) h2, hitems⟩
        · obtain ⟨source, round, rfl, items, rfl, hitems⟩ :=
            parseImportWhenAvailableArguments_ok_iff.mp h
          exact Or.inr ⟨items, congrArg (· :: _) h3, hitems⟩
        · obtain ⟨source, rfl, rfl⟩ := (parseDaemonArguments_ok_iff hrest).mp h
          exact Or.inr ⟨_, congrArg (· :: _) h4, rfl⟩
        · obtain ⟨source, apply, rfl, items, rfl, hitems⟩ := parseSyncNonceArguments_ok_iff.mp h
          exact Or.inr ⟨items, congrArg (· :: _) h5, hitems⟩
        · obtain ⟨config, rfl, values, rfl, hvalues⟩ := parseStatusArguments_ok_iff.mp h
          exact Or.inr ⟨_, congrArg (· :: _) h6, values, rfl, hvalues⟩
      · rintro (⟨rfl, hword⟩ | ⟨items, hargs, hitems⟩)
        · rcases hword with hnil | hword
          · cases hnil
          · exact if_pos (Option.some.inj hword)
        · obtain ⟨rfl, rfl⟩ := List.cons.inj hargs
          -- each word is reached only past the words that are compared before it
          cases command with
          | importRound source round =>
            dsimp only [CommandArguments.name]
            rw [if_neg (by decide : text "import" ≠ text "help"), if_pos rfl]
            exact parseImportArguments_ok_iff.mpr ⟨source, round, rfl, items, rfl, hitems⟩
          | importWhenAvailable source round =>
            dsimp only [CommandArguments.name]
            rw [if_neg (by decide : text "import-when-available" ≠ text "help"),
              if_neg (by decide : text "import-when-available" ≠ text "import"), if_pos rfl]
            exact parseImportWhenAvailableArguments_ok_iff.mpr
              ⟨source, round, rfl, items, rfl, hitems⟩
          | daemon source =>
            cases hitems
            dsimp only [CommandArguments.name]
            rw [if_neg (by decide : text "daemon" ≠ text "help"),
              if_neg (by decide : text "daemon" ≠ text "import"),
              if_neg (by decide : text "daemon" ≠ text "import-when-available"), if_pos rfl]
            exact (parseDaemonArguments_ok_iff hrest).mpr ⟨source, rfl, rfl⟩
          | syncNonce source apply =>
            dsimp only [CommandArguments.name]
            rw [if_neg (by decide : text "sync-nonce" ≠ text "help"),
              if_neg (by decide : text "sync-nonce" ≠ text "import"),
              if_neg (by decide : text "sync-nonce" ≠ text "import-when-available"),
              if_neg (by decide : text "sync-nonce" ≠ text "daemon"), if_pos rfl]
            exact parseSyncNonceArguments_ok_iff.mpr ⟨source, apply, rfl, items, rfl, hitems⟩
          | status config =>
            obtain ⟨values, rfl, hvalues⟩ := hitems
            dsimp only [CommandArguments.name]
            rw [if_neg (by decide : text "status" ≠ text "help"),
              if_neg (by decide : text "status" ≠ text "import"),
              if_neg (by decide : text "status" ≠ text "import-when-available"),
              if_neg (by decide : text "status" ≠ text "daemon"),
              if_neg (by decide : text "status" ≠ text "sync-nonce"), if_pos rfl]
            exact parseStatusArguments_ok_iff.mpr ⟨config, rfl, values, rfl, hvalues⟩
          | daemonHelp => exact hitems.elim
          | help => exact hitems.elim

end Commands

end Quicknet.Cli
