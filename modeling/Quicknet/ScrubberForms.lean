import Quicknet.TextScrubber

/-! What the scrubber is configured to look for: the forms of the secrets. -/
namespace Quicknet

open Json (Text text unit)
open Uri

/-! The secrets. -/

/-- The components of a URL that may hold a secret, with whether a short one counts too. -/
def Url.components (url : Url) : List (Text × Bool) :=
  [(url.username, true), (url.password, true)] ++
    (url.pathname.splitOn (unit '/')).map (·, false) ++
    url.searchParams.map (fun (name, queryValue) =>
      (queryValue, CREDENTIAL_QUERY_NAMES.contains (name.map lowercaseNameUnit))) ++
    [(url.hash.drop 1, false)]

/-- The value, decoded as far as it is decoded, is long enough for a secret. -/
def IsLong (value : Text) : Prop :=
  MIN_INFERRED_SECRET_LENGTH ≤ ((urlValueForms value).getLast?.getD value).length

/-- The secrets of a configured URL: the whole of it, encoded, and what its components hold. -/
inductive UrlSecret (lib : UrlLibrary) (value : Text) : Text → Prop
  | encoded {secret : Text} : encodeURIComponent value = some secret → UrlSecret lib value secret
  | href {url : Url} {secret : Text} : lib.parse value = some url →
      encodeURIComponent url.href = some secret → UrlSecret lib value secret
  | component {url : Url} {component : Text × Bool} {secret : Text} :
      lib.parse value = some url → component ∈ url.components →
      component.2 = true ∨ IsLong component.1 → secret ∈ urlValueForms component.1 →
      UrlSecret lib value secret

/-- The secrets of a configuration, with whether their case is ignored. -/
inductive Secret (lib : UrlLibrary) (options : CreateScrubberOptions) : Text → Bool → Prop
  | url {value secret : Text} : value ∈ options.rpcUrls → UrlSecret lib value secret →
      Secret lib options secret false
  | secrets {secret : Text} : secret ∈ options.secrets → Secret lib options secret false
  | privateKey {key : Text} : options.privateKey = some key →
      Secret lib options (privateKeyDigits key) true
  | prefixedKey {key : Text} : options.privateKey = some key →
      Secret lib options (text "0x" ++ privateKeyDigits key) true

/-- The text encoded `n` times as a component of a URI. -/
def UriEncoded : ℕ → Text → Text → Prop
  | 0, s, t => t = s
  | n+1, s, t => ∃ u, encodeURIComponent s = some u ∧ UriEncoded n u t

/-- The literal, once and twice encoded texts of a secret, and these as JSON escapes them. -/
def IsForm (value form : Text) : Prop :=
  value ≠ [] ∧ ∃ n < 3, ∃ encoded, UriEncoded n value encoded ∧
    (form = encoded ∨ form = Json.quoteUnits encoded)

/-- A text that the scrubber looks for, with whether its case is ignored. -/
def Sought (lib : UrlLibrary) (options : CreateScrubberOptions) (form : Text)
    (ignoreCase : Bool) : Prop :=
  ∃ value, Secret lib options value ignoreCase ∧ IsForm value form

/-! The forms that the configuration collects. -/

/-- The text is held, in any case where `ignoreCase` is set. -/
def HeldForm (secrets : SecretForms) (form : Text) (ignoreCase : Bool) : Prop :=
  ∃ flag, (form, flag) ∈ secrets ∧ (ignoreCase = true → flag = true)

/-- A step of the configuration adds these forms, and nothing else. -/
def Adds (added : Text → Bool → Prop) (secrets secrets' : SecretForms) : Prop :=
  ∀ form ignoreCase, HeldForm secrets' form ignoreCase ↔
    HeldForm secrets form ignoreCase ∨ added form ignoreCase

section Configuration

variable {secrets secrets' secrets'' : SecretForms} {value : Text} {flag : Bool}
variable {added added' : Text → Bool → Prop}

theorem Adds.nothing (h : ∀ form ignoreCase, ¬ added form ignoreCase) :
    Adds added secrets secrets := by
  intro form ignoreCase
  simp [h]

theorem Adds.trans (h : Adds added secrets secrets') (h' : Adds added' secrets' secrets'') :
    Adds (fun form ignoreCase => added form ignoreCase ∨ added' form ignoreCase) secrets
      secrets'' := by
  intro form ignoreCase
  rw [h' form ignoreCase, h form ignoreCase, or_assoc]

theorem Adds.congr (h : Adds added secrets secrets')
    (heq : ∀ form ignoreCase, added form ignoreCase ↔ added' form ignoreCase) :
    Adds added' secrets secrets' := by
  intro form ignoreCase
  rw [h form ignoreCase, heq]

/-- What a loop adds is what one of its steps adds. -/
theorem Adds.foldlM {α : Type} {f : SecretForms → α → Except Failure SecretForms}
    {added : α → Text → Bool → Prop}
    (hf : ∀ a secrets secrets', f secrets a = .ok secrets' → Adds (added a) secrets secrets')
    {l : List α} (hfold : l.foldlM f secrets = .ok secrets') :
    Adds (fun form ignoreCase => ∃ a ∈ l, added a form ignoreCase) secrets secrets' := by
  induction l generalizing secrets with
  | nil =>
    cases hfold
    exact .nothing (by simp)
  | cons a l ih =>
    rw [List.foldlM_cons] at hfold
    cases hstep : f secrets a with
    | error e =>
      rw [hstep] at hfold
      cases hfold
    | ok next =>
      rw [hstep] at hfold
      exact ((hf a secrets next hstep).trans (ih hfold)).congr fun form ignoreCase => by simp

theorem heldForm_cons {entry : Text × Bool} {form : Text} {ignoreCase : Bool} :
    HeldForm (entry :: secrets) form ignoreCase ↔
      entry.1 = form ∧ (ignoreCase = true → entry.2 = true) ∨ HeldForm secrets form ignoreCase := by
  obtain ⟨f, flag⟩ := entry
  simp only [HeldForm, List.mem_cons, Prod.mk.injEq]
  constructor
  · rintro ⟨_, ⟨rfl, rfl⟩ | hmem, hflag⟩
    · exact Or.inl ⟨rfl, hflag⟩
    · exact Or.inr ⟨_, hmem, hflag⟩
  · rintro (⟨rfl, hflag⟩ | ⟨_, hmem, hflag⟩)
    · exact ⟨_, Or.inl ⟨rfl, rfl⟩, hflag⟩
    · exact ⟨_, Or.inr hmem, hflag⟩

theorem addForm_cons (form : Text) (flag : Bool) (entry : Text × Bool) (rest : SecretForms) :
    addForm form flag (entry :: rest) =
      if entry.1 = form then (form, flag || entry.2) :: rest
      else entry :: addForm form flag rest := by
  obtain ⟨f, held⟩ := entry
  unfold addForm
  by_cases hf : f = form
  · subst hf
    cases held <;> simp [setEntry]
  · simp [setEntry, hf, List.lookup_cons, beq_eq_false_iff_ne.mpr (Ne.symm hf)]

theorem adds_addForm (value : Text) (flag : Bool) (secrets : SecretForms) :
    Adds (fun form ignoreCase => form = value ∧ (ignoreCase = true → flag = true)) secrets
      (addForm value flag secrets) := by
  intro form ignoreCase
  induction secrets with
  | nil => cases ignoreCase <;> cases flag <;> simp [addForm, setEntry, HeldForm, eq_comm]
  | cons entry rest ih =>
    rw [addForm_cons]
    split
    · rename_i hentry
      subst hentry
      rw [heldForm_cons, heldForm_cons]
      -- the flag that is held counts as well as the one that is added
      cases ignoreCase <;> cases flag <;> cases entry.2 <;> simp <;> tauto
    · rw [heldForm_cons, heldForm_cons, ih, or_assoc]

theorem adds_addForms {n : ℕ} {encoded : Text}
    (hadd : addForms n encoded flag secrets = .ok secrets') :
    Adds (fun form ignoreCase => (∃ m < n, ∃ e, UriEncoded m encoded e ∧
        (form = e ∨ form = Json.quoteUnits e)) ∧ (ignoreCase = true → flag = true))
      secrets secrets' := by
  induction n generalizing encoded secrets with
  | zero =>
    cases hadd
    exact .nothing (by simp)
  | succ n ih =>
    simp only [addForms] at hadd
    split at hadd
    · cases hadd
    rename_i next hnext
    refine (((adds_addForm _ _ _).trans (adds_addForm _ _ _)).trans (ih hadd)).congr ?_
    intro form ignoreCase
    constructor
    · rintro ((⟨hform, hflag⟩ | ⟨hform, hflag⟩) | ⟨⟨m, hm, e, he, hform⟩, hflag⟩)
      · exact ⟨⟨0, by omega, _, rfl, Or.inl hform⟩, hflag⟩
      · exact ⟨⟨0, by omega, _, rfl, Or.inr hform⟩, hflag⟩
      · exact ⟨⟨m+1, by omega, e, ⟨next, hnext, he⟩, hform⟩, hflag⟩
    · rintro ⟨⟨m, hm, e, he, hform⟩, hflag⟩
      cases m with
      | zero =>
        cases he
        rcases hform with hform | hform
        · exact Or.inl (Or.inl ⟨hform, hflag⟩)
        · exact Or.inl (Or.inr ⟨hform, hflag⟩)
      | succ m =>
        obtain ⟨u, hu, he⟩ := he
        obtain rfl := Option.some.inj (hnext.symm.trans hu)
        exact Or.inr ⟨⟨m, by omega, e, he, hform⟩, hflag⟩

theorem adds_addSecret (hadd : addSecret value flag secrets = .ok secrets') :
    Adds (fun form ignoreCase => IsForm value form ∧ (ignoreCase = true → flag = true))
      secrets secrets' := by
  unfold addSecret at hadd
  split at hadd
  · rename_i hnil
    cases hadd
    exact .nothing fun form ignoreCase h => h.1.1 hnil
  · rename_i hne
    exact (adds_addForms hadd).congr fun form ignoreCase => by simp [IsForm, hne]

theorem adds_addUrlValue {required : Bool}
    (hadd : addUrlValue value required secrets = .ok secrets') :
    Adds (fun form ignoreCase => (∃ secret, ((required = true ∨ IsLong value) ∧
      secret ∈ urlValueForms value) ∧ IsForm secret form) ∧ ignoreCase = false)
      secrets secrets' := by
  simp only [addUrlValue] at hadd
  split at hadd
  · rename_i hshort
    cases hadd
    refine .nothing ?_
    rintro form ignoreCase ⟨⟨_, ⟨hlong, _⟩, _⟩, _⟩
    unfold IsLong at hlong
    simp only [Bool.and_eq_true, Bool.not_eq_true', decide_eq_true_eq] at hshort
    rcases hlong with hrequired | hlong
    · rw [hrequired] at hshort
      cases hshort.1
    · omega
  · rename_i hlong
    refine (Adds.foldlM (fun _ _ _ hstep => adds_addSecret hstep) hadd).congr ?_
    have hcounts : required = true ∨ IsLong value := by
      unfold IsLong
      simp only [Bool.and_eq_true, Bool.not_eq_true', decide_eq_true_eq, not_and] at hlong
      cases required with
      | true => exact Or.inl rfl
      | false => exact Or.inr (by have := hlong rfl; omega)
    intro form ignoreCase
    simp only [hcounts, true_and, Bool.false_eq_true, imp_false, Bool.not_eq_true]
    constructor
    · rintro ⟨secret, hmem, hform, hcase⟩
      exact ⟨⟨secret, hmem, hform⟩, hcase⟩
    · rintro ⟨⟨secret, hmem, hform⟩, hcase⟩
      exact ⟨secret, hmem, hform, hcase⟩

theorem exists_of_bind_ok {α β : Type} {x : Except Failure α} {f : α → Except Failure β} {b : β}
    (h : x >>= f = .ok b) : ∃ a, x = .ok a ∧ f a = .ok b := by
  cases x with
  | error e => cases h
  | ok a => exact ⟨a, rfl, h⟩

/-- After the encoded URLs the components are added, one after the other. -/
theorem addUrl_ok {lib : UrlLibrary} (hadd : addUrl lib secrets value = .ok secrets') :
    ∃ url e e' s₁ s₂, lib.parse value = some url ∧ encodeURIComponent value = some e ∧
      addSecret e false secrets = .ok s₁ ∧ encodeURIComponent url.href = some e' ∧
      addSecret e' false s₁ = .ok s₂ ∧
      url.components.foldlM (fun secrets c => addUrlValue c.1 c.2 secrets) s₂ = .ok secrets' := by
  unfold addUrl at hadd
  split at hadd
  · cases hadd
  rename_i url hparse
  split at hadd
  swap
  · cases hadd
  obtain ⟨e, he, hadd⟩ := exists_of_bind_ok hadd
  obtain ⟨s₁, h₁, hadd⟩ := exists_of_bind_ok hadd
  obtain ⟨e', he', hadd⟩ := exists_of_bind_ok hadd
  obtain ⟨s₂, h₂, hadd⟩ := exists_of_bind_ok hadd
  have hvalue : encodeURIComponent value = some e := by
    dsimp only at he
    split at he
    · cases he
    · cases he
      assumption
  have hhref : encodeURIComponent url.href = some e' := by
    dsimp only at he'
    split at he'
    · cases he'
    · cases he'
      assumption
  refine ⟨url, e, e', s₁, s₂, hparse, hvalue, h₁, hhref, h₂, ?_⟩
  simp only [Url.components, List.foldlM_append, List.foldlM_map, List.foldlM_cons,
    List.foldlM_nil, bind_assoc, bind_pure]
  simpa only [bind_assoc, bind_pure] using hadd

theorem adds_addUrl {lib : UrlLibrary} (hadd : addUrl lib secrets value = .ok secrets') :
    Adds (fun form ignoreCase => (∃ secret, UrlSecret lib value secret ∧ IsForm secret form) ∧
      ignoreCase = false) secrets secrets' := by
  obtain ⟨url, e, e', s₁, s₂, hparse, he, h₁, he', h₂, hrest⟩ := addUrl_ok hadd
  have hcomponents := Adds.foldlM (fun c _ _ hstep => adds_addUrlValue hstep) hrest
  refine (((adds_addSecret h₁).trans (adds_addSecret h₂)).trans hcomponents).congr ?_
  intro form ignoreCase
  simp only [Bool.false_eq_true, imp_false, Bool.not_eq_true]
  constructor
  · rintro ((⟨hform, hcase⟩ | ⟨hform, hcase⟩) | ⟨c, hc, ⟨secret, ⟨hlong, hmem⟩, hform⟩, hcase⟩)
    · exact ⟨⟨e, .encoded he, hform⟩, hcase⟩
    · exact ⟨⟨e', .href hparse he', hform⟩, hcase⟩
    · exact ⟨⟨secret, .component hparse hc hlong hmem, hform⟩, hcase⟩
  · rintro ⟨⟨secret, hsecret, hform⟩, hcase⟩
    cases hsecret with
    | encoded h =>
      obtain rfl := Option.some.inj (he.symm.trans h)
      exact Or.inl (Or.inl ⟨hform, hcase⟩)
    | href hparse₁ h =>
      obtain rfl := Option.some.inj (hparse.symm.trans hparse₁)
      obtain rfl := Option.some.inj (he'.symm.trans h)
      exact Or.inl (Or.inr ⟨hform, hcase⟩)
    | component hparse₁ hc hlong hmem =>
      obtain rfl := Option.some.inj (hparse.symm.trans hparse₁)
      exact Or.inr ⟨_, hc, ⟨secret, ⟨hlong, hmem⟩, hform⟩, hcase⟩

theorem adds_addPrivateKey {privateKey : Option Text}
    (hadd : addPrivateKey secrets privateKey = .ok secrets') :
    Adds (fun form _ => ∃ key, privateKey = some key ∧ (IsForm (privateKeyDigits key) form ∨
      IsForm (text "0x" ++ privateKeyDigits key) form)) secrets secrets' := by
  cases privateKey with
  | none =>
    cases hadd
    exact .nothing (by simp)
  | some key =>
    simp only [addPrivateKey] at hadd
    split at hadd
    · cases hadd
    obtain ⟨s₁, h₁, h₂⟩ := exists_of_bind_ok hadd
    exact ((adds_addSecret h₁).trans (adds_addSecret h₂)).congr fun form ignoreCase => by simp

/-- The scrubber holds the forms of the secrets, normalized, and nothing else. -/
theorem createScrubber_holds {lib : UrlLibrary} {options : CreateScrubberOptions}
    {scrubber : Scrubber} (h : createScrubber lib options = .ok scrubber) :
    scrubber.configuredUrls = configuredUrls lib options.rpcUrls ∧ ∃ secrets,
      (∀ form ignoreCase, HeldForm secrets form ignoreCase ↔
        ∃ flag, Sought lib options form flag ∧ (ignoreCase = true → flag = true)) ∧
      (∀ s, s ∈ scrubber.exactSecrets ↔
        ∃ form, (form, false) ∈ secrets ∧ normalizePercentEscapes form = s) ∧
      ∀ s, s ∈ scrubber.foldedSecrets ↔
        ∃ form, (form, true) ∈ secrets ∧ lowercaseAscii (normalizePercentEscapes form) = s := by
  obtain ⟨s₁, h₁, h⟩ := exists_of_bind_ok h
  obtain ⟨s₂, h₂, h⟩ := exists_of_bind_ok h
  obtain ⟨s₃, h₃, h⟩ := exists_of_bind_ok h
  cases h
  refine ⟨rfl, s₃, ?_, ?_, ?_⟩
  · intro form ignoreCase
    -- the URLs, the given secrets and the key are added one after another
    have hurls := Adds.foldlM (fun _ _ _ hstep => adds_addUrl hstep) h₁
    have hsecrets := Adds.foldlM (fun _ _ _ hstep => adds_addSecret hstep) h₂
    rw [((hurls.trans hsecrets).trans (adds_addPrivateKey h₃)) form ignoreCase]
    have hnone : ¬ HeldForm [] form ignoreCase := by simp [HeldForm]
    simp only [hnone, false_or, Bool.false_eq_true, imp_false, Bool.not_eq_true]
    constructor
    · rintro ((⟨value, hvalue, ⟨secret, hsecret, hform⟩, hcase⟩ | ⟨secret, hmem, hform, hcase⟩) |
        ⟨key, hkey, hform | hform⟩)
      · exact ⟨false, ⟨secret, .url hvalue hsecret, hform⟩, by simp [hcase]⟩
      · exact ⟨false, ⟨secret, .secrets hmem, hform⟩, by simp [hcase]⟩
      · exact ⟨true, ⟨_, .privateKey hkey, hform⟩, fun _ => rfl⟩
      · exact ⟨true, ⟨_, .prefixedKey hkey, hform⟩, fun _ => rfl⟩
    · rintro ⟨flag, ⟨secret, hsecret, hform⟩, hflag⟩
      cases hsecret with
      | url hvalue hsecret =>
        exact Or.inl (Or.inl ⟨_, hvalue, ⟨secret, hsecret, hform⟩, by simpa using hflag⟩)
      | secrets hmem => exact Or.inl (Or.inr ⟨secret, hmem, hform, by simpa using hflag⟩)
      | privateKey hkey => exact Or.inr ⟨_, hkey, Or.inl hform⟩
      | prefixedKey hkey => exact Or.inr ⟨_, hkey, Or.inr hform⟩
  -- the needles are the forms that were added, in the spelling that is compared
  · intro s
    rw [List.mem_eraseDups, List.mem_map]
    constructor
    · rintro ⟨⟨form, flag⟩, hmem, rfl⟩
      obtain ⟨hmem, hflag⟩ := List.mem_filter.mp hmem
      cases flag with
      | false => exact ⟨form, hmem, rfl⟩
      | true => cases hflag
    · rintro ⟨form, hmem, rfl⟩
      exact ⟨(form, false), List.mem_filter.mpr ⟨hmem, rfl⟩, rfl⟩
  · intro s
    rw [List.mem_eraseDups, List.mem_map]
    constructor
    · rintro ⟨⟨form, flag⟩, hmem, rfl⟩
      obtain ⟨hmem, hflag⟩ := List.mem_filter.mp hmem
      cases flag with
      | true => exact ⟨form, hmem, rfl⟩
      | false => cases hflag
    · rintro ⟨form, hmem, rfl⟩
      exact ⟨(form, true), List.mem_filter.mpr ⟨hmem, rfl⟩, rfl⟩

end Configuration

end Quicknet
