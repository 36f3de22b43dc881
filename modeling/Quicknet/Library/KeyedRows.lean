import Mathlib.Tactic

/-! Rows with keys, in the order in which a map holds them: the row of a key, the row that is
added when a key is first used, and the change of one row. One list of rows follows another
where each row of that one has gone on under its key. -/
namespace KeyedRows

variable {ρ κ : Type*} {key : ρ → κ}

/-- Rows with distinct keys are determined by them. -/
theorem eq_of_key_eq {rows : List ρ} (h : (rows.map key).Nodup) {r r' : ρ} (hr : r ∈ rows)
    (hr' : r' ∈ rows) (hkey : key r = key r') : r = r' := List.inj_on_of_nodup_map h hr hr' hkey

/-- Each earlier row has a later one of its key that stands in the relation to it. -/
def Follows (key : ρ → κ) (R : ρ → ρ → Prop) (later earlier : List ρ) : Prop :=
  ∀ r ∈ earlier, ∃ r' ∈ later, key r' = key r ∧ R r' r

namespace Follows

variable {R : ρ → ρ → Prop}

theorem refl (h : ∀ r, R r r) (rows : List ρ) : Follows key R rows rows :=
  fun r hr => ⟨r, hr, rfl, h r⟩

theorem trans (h : ∀ {a b c}, R a b → R b c → R a c) {later middle earlier : List ρ}
    (h₁ : Follows key R later middle) (h₂ : Follows key R middle earlier) :
    Follows key R later earlier := by
  intro r hr
  obtain ⟨b, hb, hkb, hRb⟩ := h₂ r hr
  obtain ⟨a, ha, hka, hRa⟩ := h₁ b hb
  exact ⟨a, ha, hka.trans hkb, h hRa hRb⟩

end Follows

variable [DecidableEq κ]

section Operations

variable (key : ρ → κ) (rows : List ρ)

/-- A map that is built from rows keeps the last one of a key. -/
def get (k : κ) : Option ρ := rows.reverse.find? fun r => key r = k

def getOrInsert (fresh : ρ) : List ρ :=
  if (get key rows (key fresh)).isSome then rows else rows ++ [fresh]

def update (k : κ) (f : ρ → ρ) : List ρ := rows.map fun r => if key r = k then f r else r

end Operations

variable {rows : List ρ}

theorem get_some {k : κ} {r : ρ} (h : get key rows k = some r) : r ∈ rows ∧ key r = k :=
  ⟨List.mem_reverse.mp (List.mem_of_find?_eq_some h), by simpa using List.find?_some h⟩

theorem get_eq_none_iff {k : κ} : get key rows k = none ↔ ∀ r ∈ rows, key r ≠ k := by
  simp [get, List.find?_eq_none]

theorem get_eq_some_iff (h : (rows.map key).Nodup) {k : κ} {r : ρ} :
    get key rows k = some r ↔ r ∈ rows ∧ key r = k := by
  refine ⟨get_some, fun ⟨hr, hk⟩ => ?_⟩
  cases hget : get key rows k with
  | none => exact absurd hk (get_eq_none_iff.mp hget r hr)
  | some r' =>
    obtain ⟨hr', hk'⟩ := get_some hget
    rw [eq_of_key_eq h hr hr' (hk.trans hk'.symm)]

theorem map_key_update {k : κ} {f : ρ → ρ} (hf : ∀ r, key (f r) = key r) :
    (update key rows k f).map key = rows.map key := by
  rw [update, List.map_map]
  apply List.map_congr_left
  intro r _
  by_cases hk : key r = k <;> simp [hk, hf]

theorem mem_update {k : κ} {f : ρ → ρ} {r : ρ} :
    r ∈ update key rows k f ↔ ∃ r₀ ∈ rows, (if key r₀ = k then f r₀ else r₀) = r := List.mem_map

theorem mem_getOrInsert {fresh r : ρ} (h : r ∈ getOrInsert key rows fresh) :
    r ∈ rows ∨ r = fresh ∧ ∀ r' ∈ rows, key r' ≠ key fresh := by
  unfold getOrInsert at h
  split_ifs at h with hget
  · exact Or.inl h
  · rcases List.mem_append.mp h with h | h
    · exact Or.inl h
    · exact Or.inr ⟨List.mem_singleton.mp h, get_eq_none_iff.mp (by simpa using hget)⟩

theorem subset_getOrInsert (fresh : ρ) : rows ⊆ getOrInsert key rows fresh := by
  unfold getOrInsert
  split_ifs
  · exact List.Subset.refl rows
  · exact List.subset_append_left rows [fresh]

theorem exists_mem_getOrInsert (fresh : ρ) :
    ∃ r ∈ getOrInsert key rows fresh, key r = key fresh := by
  unfold getOrInsert
  split_ifs with hget
  · obtain ⟨r, hr⟩ := Option.isSome_iff_exists.mp hget
    exact ⟨r, get_some hr⟩
  · exact ⟨fresh, by simp, rfl⟩

theorem nodup_getOrInsert {fresh : ρ} (h : (rows.map key).Nodup) :
    ((getOrInsert key rows fresh).map key).Nodup := by
  unfold getOrInsert
  split_ifs with hget
  · exact h
  · rw [List.map_append, List.map_singleton]
    apply List.Nodup.append h (List.nodup_singleton _)
    intro k hk hfresh
    obtain ⟨r, hr, rfl⟩ := List.mem_map.mp hk
    exact get_eq_none_iff.mp (by simpa using hget) r hr (List.mem_singleton.mp hfresh)

theorem get_perm {rows' : List ρ} (hperm : rows'.Perm rows) (h : (rows.map key).Nodup) (k : κ) :
    get key rows' k = get key rows k := by
  have h' : (rows'.map key).Nodup := (hperm.map key).nodup_iff.mpr h
  ext r
  rw [get_eq_some_iff h, get_eq_some_iff h', hperm.mem_iff]

theorem get_map {σ : Type*} {key' : σ → κ} {f : ρ → σ} (hf : ∀ r, key' (f r) = key r) (k : κ) :
    get key' (rows.map f) k = (get key rows k).map f := by
  unfold get
  rw [← List.map_reverse, List.find?_map]
  congr 2
  funext r
  simp [hf]

theorem get_update {k : κ} {f : ρ → ρ} (hf : ∀ r, key (f r) = key r) (k' : κ) :
    get key (update key rows k f) k' =
      if k' = k then (get key rows k').map f else get key rows k' := by
  have hkey (r : ρ) : key (if key r = k then f r else r) = key r := by
    split_ifs
    · exact hf r
    · rfl
  rw [update, get_map hkey]
  cases hget : get key rows k' with
  | none => simp
  | some r =>
    obtain rfl := (get_some hget).2
    split_ifs with hk <;> simp [hk]

/-- The row that is added is at the end, and no other has its key. -/
theorem get_getOrInsert (fresh : ρ) (k : κ) : get key (getOrInsert key rows fresh) k =
    if k = key fresh then some ((get key rows k).getD fresh) else get key rows k := by
  unfold getOrInsert
  split_ifs with hget hk hk
  · obtain ⟨r, hr⟩ := Option.isSome_iff_exists.mp hget
    rw [hk, hr, Option.getD_some]
  · rfl
  · rw [hk, Option.not_isSome_iff_eq_none.mp hget]
    simp [get]
  · simp [get, Ne.symm hk]

section Following

variable {R : ρ → ρ → Prop}

theorem follows_getOrInsert (h : ∀ r, R r r) (fresh : ρ) :
    Follows key R (getOrInsert key rows fresh) rows :=
  fun r hr => ⟨r, subset_getOrInsert fresh hr, rfl, h r⟩

theorem follows_update {k : κ} {f : ρ → ρ} (h : ∀ r, R r r) (hf : ∀ r, key (f r) = key r ∧ R (f r) r) :
    Follows key R (update key rows k f) rows := by
  intro r hr
  refine ⟨_, mem_update.mpr ⟨r, hr, rfl⟩, ?_⟩
  split_ifs
  · exact hf r
  · exact ⟨rfl, h r⟩

end Following

section Totals

variable {G : Type*} [AddCommGroup G]

/-- What the row of a key amounts to, which is nothing where the key has no row. -/
def total (key : ρ → κ) (amount : ρ → G) (rows : List ρ) (k : κ) : G :=
  (get key rows k).elim 0 amount

/-- Where each row is replaced by its difference from the earlier row of its key, what the rows
amount to is the difference as well. No earlier row may be without a later one. -/
theorem total_since {σ : Type*} {key' : σ → κ} {amount : ρ → G} {amount' : σ → G}
    {since : ρ → Option ρ → σ} {earlier : List ρ} {rows' : List σ}
    (hkey : ∀ r e, key' (since r e) = key r)
    (hamount : ∀ r e, amount' (since r e) = amount r - e.elim 0 amount)
    (hrows : rows'.Perm (rows.map fun r => since r (get key earlier (key r))))
    (hnodup : (rows.map key).Nodup) (hearlier : ∀ r ∈ earlier, ∃ r' ∈ rows, key r' = key r) (k : κ) :
    total key' amount' rows' k = total key amount rows k - total key amount earlier k := by
  have hkeys : ((rows.map fun r => since r (get key earlier (key r))).map key').Nodup := by
    rw [List.map_map]
    convert hnodup using 2
    funext r
    exact hkey _ _
  unfold total
  rw [get_perm hrows hkeys, get_map fun r => hkey r _]
  cases hget : get key rows k with
  | none =>
    have hnone : get key earlier k = none := by
      rw [get_eq_none_iff] at hget ⊢
      intro r hr
      obtain ⟨r', hr', hsame⟩ := hearlier r hr
      rw [← hsame]
      exact hget r' hr'
    simp [hnone]
  | some r =>
    have hk := (get_some hget).2
    simp [hamount, hk]

/-- Differences between neighbours add up to the difference between the ends. -/
theorem sum_differences {α : Type*} (f : α → G) (first : α) (rest : List α) :
    (((first :: rest).zip rest).map fun p => f p.2 - f p.1).sum =
      f (rest.getLastD first) - f first := by
  induction rest generalizing first with
  | nil => simp
  | cons second rest ih =>
    rw [List.zip_cons_cons, List.map_cons, List.sum_cons, ih second, List.getLastD_cons]
    abel

end Totals

end KeyedRows
