import Mathlib.Tactic

/-! Advisory locks on whole files. A lock belongs to an open file description, to which the
descriptors of several processes may refer, and it is gone when the last of them is closed.
Two descriptions of one file are never locked at once when one of the locks is exclusive. -/
namespace FileLock

inductive LockMode
  | shared
  | exclusive
  deriving DecidableEq

structure Description (ι : Type) where
  inode : ι
  lock : Option LockMode
  deriving DecidableEq

/-- The open descriptors of a process, with the descriptions they refer to. -/
abbrev Table := List (ℕ × ℕ)

def Refers (tables : List Table) (d : ℕ) : Prop := ∃ t ∈ tables, ∃ e ∈ t, e.2 = d

instance (tables : List Table) (d : ℕ) : Decidable (Refers tables d) :=
  inferInstanceAs (Decidable (∃ t ∈ tables, ∃ e ∈ t, e.2 = d))

structure Kernel (ι : Type) where
  descriptions : List (Description ι)
  tables : List Table
  bounded : ∀ d, Refers tables d → d < descriptions.length
  exclusive : ∀ d d' x x', Refers tables d → Refers tables d' → descriptions[d]? = some x →
    descriptions[d']? = some x' → d ≠ d' → x.inode = x'.inode → x.lock = some .exclusive →
    x'.lock = none

inductive Call (ι : Type)
  | openFile (fd : ℕ) (inode : ι)
  | duplicate (fd fd' : ℕ)
  | close (fd : ℕ)
  | flock (fd : ℕ) (mode : LockMode)
  | unlock (fd : ℕ)
  | fork
  | exit

section Tables

variable {tables : List Table} {d p : ℕ} {t : Table}

theorem refers_of_mem {e : ℕ × ℕ} (ht : t ∈ tables) (he : e ∈ t) : Refers tables e.2 :=
  ⟨t, ht, e, he, rfl⟩

/-- A table that is put in the place of another one refers to nothing else. -/
theorem refers_set (h : Refers (tables.set p t) d) : Refers tables d ∨ ∃ e ∈ t, e.2 = d := by
  obtain ⟨t', ht', e, he, hd⟩ := h
  rcases List.mem_or_eq_of_mem_set ht' with hmem | rfl
  · exact Or.inl ⟨t', hmem, e, he, hd⟩
  · exact Or.inr ⟨e, he, hd⟩

end Tables

namespace Kernel

variable {ι : Type}

def table (k : Kernel ι) (p : ℕ) : Table := k.tables.getD p []

def description? (k : Kernel ι) (p fd : ℕ) : Option ℕ := (k.table p).lookup fd

/-- Process `p` has a descriptor of the description. -/
def Holds (k : Kernel ι) (p d : ℕ) : Prop := ∃ e ∈ k.table p, e.2 = d

/-- No other process has a descriptor of the description. -/
def Private (k : Kernel ι) (p d : ℕ) : Prop := ∀ q, q ≠ p → ¬ k.Holds q d

theorem Holds.refers {k : Kernel ι} {p d : ℕ} (h : k.Holds p d) : Refers k.tables d := by
  obtain ⟨e, he, rfl⟩ := h
  unfold table at he
  rw [List.getD_eq_getElem?_getD] at he
  cases ht : k.tables[p]? with
  | none =>
    rw [ht] at he
    cases he
  | some t =>
    rw [ht] at he
    exact refers_of_mem (List.mem_of_getElem? ht) he

theorem refers_holds {k : Kernel ι} {d : ℕ} (h : Refers k.tables d) : ∃ p, k.Holds p d := by
  obtain ⟨t, ht, e, he, rfl⟩ := h
  obtain ⟨p, hp⟩ := List.mem_iff_getElem?.mp ht
  refine ⟨p, e, ?_, rfl⟩
  unfold table
  rw [List.getD_eq_getElem?_getD, hp]
  exact he

theorem description_holds {k : Kernel ι} {p fd d : ℕ} (h : k.description? p fd = some d) :
    k.Holds p d := by
  obtain ⟨l₁, l₂, hl, _⟩ := List.lookup_eq_some_iff.mp h
  exact ⟨(fd, d), by rw [hl]; simp, rfl⟩

/-! Changes of a table that refer to nothing new. -/

theorem retable_refers {k : Kernel ι} {p : ℕ} {t : Table} (h : ∀ e ∈ t, Refers k.tables e.2)
    {d : ℕ} (hd : Refers (k.tables.set p t) d) : Refers k.tables d := by
  rcases refers_set hd with hd | ⟨e, he, rfl⟩
  · exact hd
  · exact h e he

def retable (k : Kernel ι) (p : ℕ) (t : Table) (h : ∀ e ∈ t, Refers k.tables e.2) : Kernel ι where
  descriptions := k.descriptions
  tables := k.tables.set p t
  bounded := fun d hd => k.bounded d (retable_refers h hd)
  exclusive := fun d d' x x' hd hd' =>
    k.exclusive d d' x x' (retable_refers h hd) (retable_refers h hd')

theorem table_refers (k : Kernel ι) (p : ℕ) : ∀ e ∈ k.table p, Refers k.tables e.2 :=
  fun e he => Holds.refers (p := p) ⟨e, he, rfl⟩

/-- The descriptor `fd'` refers to what `fd` refers to, if it refers to anything. -/
def duplicateTable (k : Kernel ι) (p fd fd' : ℕ) : Table :=
  ((k.description? p fd).map fun d => (fd', d) :: (k.table p).filter fun e => e.1 != fd').getD
    (k.table p)

theorem mem_duplicateTable {k : Kernel ι} {p fd fd' : ℕ} {e : ℕ × ℕ}
    (h : e ∈ k.duplicateTable p fd fd') : k.Holds p e.2 := by
  unfold duplicateTable at h
  cases hd : k.description? p fd with
  | none =>
    rw [hd] at h
    exact ⟨e, h, rfl⟩
  | some d =>
    rw [hd] at h
    rcases List.mem_cons.mp h with rfl | h
    · exact description_holds hd
    · exact ⟨e, List.mem_of_mem_filter h, rfl⟩

theorem duplicate_refers (k : Kernel ι) (p fd fd' : ℕ) :
    ∀ e ∈ k.duplicateTable p fd fd', Refers k.tables e.2 :=
  fun _ he => (mem_duplicateTable he).refers

theorem close_refers (k : Kernel ι) (p fd : ℕ) :
    ∀ e ∈ (k.table p).filter fun e => e.1 != fd, Refers k.tables e.2 :=
  fun e he => k.table_refers p e (List.mem_of_mem_filter he)

theorem exit_refers (k : Kernel ι) : ∀ e ∈ ([] : Table), Refers k.tables e.2 :=
  fun _ he => absurd he List.not_mem_nil

theorem fork_refers {k : Kernel ι} {p d : ℕ} (h : Refers (k.tables ++ [k.table p]) d) :
    Refers k.tables d := by
  obtain ⟨t, ht, e, he, rfl⟩ := h
  rcases List.mem_append.mp ht with ht | ht
  · exact refers_of_mem ht he
  · rw [List.mem_singleton] at ht
    subst ht
    exact k.table_refers p e he

/-- A new process with the descriptors of the one that forked it. -/
def forked (k : Kernel ι) (p : ℕ) : Kernel ι where
  descriptions := k.descriptions
  tables := k.tables ++ [k.table p]
  bounded := fun d hd => k.bounded d (fork_refers hd)
  exclusive := fun d d' x x' hd hd' => k.exclusive d d' x x' (fork_refers hd) (fork_refers hd')

/-! A new description, which is not locked. -/

def openTable (k : Kernel ι) (p fd : ℕ) : Table :=
  (fd, k.descriptions.length) :: (k.table p).filter fun e => e.1 != fd

theorem open_refers {k : Kernel ι} {p fd d : ℕ}
    (h : Refers (k.tables.set p (k.openTable p fd)) d) :
    Refers k.tables d ∨ d = k.descriptions.length := by
  rcases refers_set h with h | ⟨e, he, rfl⟩
  · exact Or.inl h
  · rcases List.mem_cons.mp he with rfl | he
    · exact Or.inr rfl
    · exact Or.inl (k.close_refers p fd e he)

theorem open_bounded (k : Kernel ι) (p fd : ℕ) (inode : ι) (d : ℕ)
    (h : Refers (k.tables.set p (k.openTable p fd)) d) :
    d < (k.descriptions ++ [Description.mk inode none]).length := by
  rw [List.length_append, List.length_singleton]
  rcases open_refers h with h | rfl
  · exact Nat.lt_succ_of_lt (k.bounded d h)
  · exact Nat.lt_succ_self _

theorem open_description {k : Kernel ι} {p fd d : ℕ} {inode : ι} {x : Description ι}
    (h : Refers (k.tables.set p (k.openTable p fd)) d)
    (hx : (k.descriptions ++ [Description.mk inode none])[d]? = some x) :
    (Refers k.tables d ∧ k.descriptions[d]? = some x) ∨
      d = k.descriptions.length ∧ x = ⟨inode, none⟩ := by
  rcases open_refers h with h | rfl
  · rw [List.getElem?_append_left (k.bounded d h)] at hx
    exact Or.inl ⟨h, hx⟩
  · rw [List.getElem?_append_right le_rfl, Nat.sub_self] at hx
    exact Or.inr ⟨rfl, (Option.some.inj hx).symm⟩

theorem open_exclusive (k : Kernel ι) (p fd : ℕ) (inode : ι) (d d' : ℕ) (x x' : Description ι)
    (hd : Refers (k.tables.set p (k.openTable p fd)) d)
    (hd' : Refers (k.tables.set p (k.openTable p fd)) d')
    (hx : (k.descriptions ++ [Description.mk inode none])[d]? = some x)
    (hx' : (k.descriptions ++ [Description.mk inode none])[d']? = some x') (hne : d ≠ d')
    (hinode : x.inode = x'.inode) (hlock : x.lock = some .exclusive) : x'.lock = none := by
  rcases open_description hd hx with ⟨hd, hx⟩ | ⟨_, rfl⟩
  · rcases open_description hd' hx' with ⟨hd', hx'⟩ | ⟨_, rfl⟩
    · exact k.exclusive d d' x x' hd hd' hx hx' hne hinode hlock
    · rfl
  · cases hlock

def opened (k : Kernel ι) (p fd : ℕ) (inode : ι) : Kernel ι where
  descriptions := k.descriptions ++ [Description.mk inode none]
  tables := k.tables.set p (k.openTable p fd)
  bounded := k.open_bounded p fd inode
  exclusive := k.open_exclusive p fd inode

/-! Locks. -/

def relocked (descriptions : List (Description ι)) (d : ℕ) (lock : Option LockMode) :
    List (Description ι) :=
  descriptions.modify d fun x => { x with lock := lock }

theorem relocked_getElem? {descriptions : List (Description ι)} {d d' : ℕ}
    {lock : Option LockMode} {x : Description ι} (h : (relocked descriptions d lock)[d']? = some x) :
    ∃ y, descriptions[d']? = some y ∧ y.inode = x.inode ∧
      x.lock = if d = d' then lock else y.lock := by
  unfold relocked at h
  rw [List.getElem?_modify] at h
  obtain ⟨y, hy, rfl⟩ := Option.map_eq_some_iff.mp h
  refine ⟨y, hy, ?_⟩
  split_ifs <;> exact ⟨rfl, rfl⟩

theorem relocked_length (descriptions : List (Description ι)) (d : ℕ) (lock : Option LockMode) :
    (relocked descriptions d lock).length = descriptions.length := by
  unfold relocked
  exact List.length_modify _ _ _

theorem unlock_exclusive (k : Kernel ι) (d₀ d d' : ℕ) (x x' : Description ι)
    (hd : Refers k.tables d) (hd' : Refers k.tables d')
    (hx : (relocked k.descriptions d₀ none)[d]? = some x)
    (hx' : (relocked k.descriptions d₀ none)[d']? = some x') (hne : d ≠ d')
    (hinode : x.inode = x'.inode) (hlock : x.lock = some .exclusive) : x'.lock = none := by
  obtain ⟨y, hy, hyx, hyl⟩ := relocked_getElem? hx
  obtain ⟨y', hy', hyx', hyl'⟩ := relocked_getElem? hx'
  rw [hyl']
  split_ifs with hdd'
  · rfl
  · split_ifs at hyl with hdd
    · rw [hyl] at hlock
      cases hlock
    · exact k.exclusive d d' y y' hd hd' hy hy' hne (by rw [hyx, hyx', hinode]) (hyl ▸ hlock)

theorem relocked_bounded (k : Kernel ι) (d₀ : ℕ) (lock : Option LockMode) (d : ℕ)
    (hd : Refers k.tables d) : d < (relocked k.descriptions d₀ lock).length := by
  rw [relocked_length]
  exact k.bounded d hd

/-- The description without its lock. -/
def unlocked (k : Kernel ι) (d : ℕ) : Kernel ι where
  descriptions := relocked k.descriptions d none
  tables := k.tables
  bounded := k.relocked_bounded d none
  exclusive := k.unlock_exclusive d

variable [DecidableEq ι]

/-- No other description of the file that is in use has a lock in the way. -/
def grants (k : Kernel ι) (d : ℕ) (mode : LockMode) : Bool :=
  (List.range k.descriptions.length).all fun d' =>
    d' == d || !decide (Refers k.tables d') || (k.descriptions[d']?).all fun x' =>
      (k.descriptions[d]?).all fun x => x.inode != x'.inode || x'.lock.all fun held =>
        held == .shared && mode == .shared

theorem grants_iff {k : Kernel ι} {d : ℕ} {mode : LockMode} :
    k.grants d mode = true ↔ ∀ d' x x', Refers k.tables d' → k.descriptions[d]? = some x →
      k.descriptions[d']? = some x' → d' ≠ d → x.inode = x'.inode →
      ∀ held, x'.lock = some held → held = .shared ∧ mode = .shared := by
  unfold grants
  rw [List.all_eq_true]
  constructor
  · intro h d' x x' hd' hx hx' hne hinode held hheld
    have hall := h d' (List.mem_range.mpr (k.bounded d' hd'))
    simpa [hne, hd', hx, hx', hinode, hheld] using hall
  · intro h d' hrange
    by_cases hne : d' = d
    · simp [hne]
    · by_cases hd' : Refers k.tables d'
      · cases hx' : k.descriptions[d']? with
        | none => simp
        | some x' =>
          cases hx : k.descriptions[d]? with
          | none => simp
          | some x =>
            by_cases hinode : x.inode = x'.inode
            · cases hheld : x'.lock with
              | none => simp [hheld]
              | some held =>
                have hshared := h d' x x' hd' hx hx' hne hinode held hheld
                simp [hheld, hshared.1, hshared.2]
            · simp [hinode]
      · simp [hd']

theorem lock_exclusive {k : Kernel ι} {d₀ : ℕ} {mode : LockMode} (h : k.grants d₀ mode = true)
    (d d' : ℕ) (x x' : Description ι) (hd : Refers k.tables d) (hd' : Refers k.tables d')
    (hx : (relocked k.descriptions d₀ (some mode))[d]? = some x)
    (hx' : (relocked k.descriptions d₀ (some mode))[d']? = some x') (hne : d ≠ d')
    (hinode : x.inode = x'.inode) (hlock : x.lock = some .exclusive) : x'.lock = none := by
  obtain ⟨y, hy, hyx, hyl⟩ := relocked_getElem? hx
  obtain ⟨y', hy', hyx', hyl'⟩ := relocked_getElem? hx'
  have heq : y.inode = y'.inode := by rw [hyx, hyx', hinode]
  have hgrants := grants_iff.mp h
  by_cases hdd : d₀ = d
  · -- the lock is the new one, so another lock on the file was in the way
    have hmode : mode = .exclusive := by
      rw [hyl, if_pos hdd] at hlock
      exact Option.some.inj hlock
    subst hdd
    rw [if_neg hne] at hyl'
    rw [hyl']
    cases hheld : y'.lock with
    | none => rfl
    | some held =>
      have hshared := (hgrants d' y y' hd' hy hy' (Ne.symm hne) heq held hheld).2
      rw [hmode] at hshared
      cases hshared
  · rw [if_neg hdd] at hyl
    rw [hyl] at hlock
    by_cases hdd' : d₀ = d'
    · subst hdd'
      have hshared := (hgrants d y' y hd hy' hy hne heq.symm _ hlock).1
      cases hshared
    · rw [if_neg hdd'] at hyl'
      rw [hyl']
      exact k.exclusive d d' y y' hd hd' hy hy' hne heq hlock

def locked (k : Kernel ι) (d : ℕ) (mode : LockMode) (h : k.grants d mode = true) : Kernel ι where
  descriptions := relocked k.descriptions d (some mode)
  tables := k.tables
  bounded := k.relocked_bounded d (some mode)
  exclusive := lock_exclusive h

/-- A request that does not wait. A lock of the other mode is given up before the new one is
tried, also where that is refused. -/
def flock (k : Kernel ι) (d : ℕ) (mode : LockMode) : Bool × Kernel ι :=
  if ((k.descriptions[d]?).bind Description.lock) = some mode then (true, k)
  else if h : k.grants d mode = true then (true, k.locked d mode h)
  else (false, k.unlocked d)

/-- What is done with the description of a descriptor, if it has one. -/
def onDescription (k : Kernel ι) (p fd : ℕ) (f : ℕ → Bool × Kernel ι) : Bool × Kernel ι :=
  ((k.description? p fd).map f).getD (false, k)

/-- A call of process `p`, and whether it succeeds. -/
def perform (k : Kernel ι) (p : ℕ) : Call ι → Bool × Kernel ι
  | .openFile fd inode => (true, k.opened p fd inode)
  | .duplicate fd fd' =>
    ((k.description? p fd).isSome, k.retable p _ (k.duplicate_refers p fd fd'))
  | .close fd => ((k.description? p fd).isSome, k.retable p _ (k.close_refers p fd))
  | .flock fd mode => k.onDescription p fd fun d => k.flock d mode
  | .unlock fd => k.onDescription p fd fun d => (true, k.unlocked d)
  | .fork => (true, k.forked p)
  | .exit => (true, k.retable p [] k.exit_refers)

/-! What a call leaves as it was. -/

section Frame

variable {k : Kernel ι} {p q d : ℕ}

omit [DecidableEq ι] in
theorem set_table_of_ne (tables : List Table) (t : Table) (h : q ≠ p) :
    (tables.set p t).getD q [] = tables.getD q [] := by
  rw [List.getD_eq_getElem?_getD, List.getD_eq_getElem?_getD, List.getElem?_set_ne (Ne.symm h)]

omit [DecidableEq ι] in
theorem set_table_self {tables : List Table} (t : Table) (h : p < tables.length) :
    (tables.set p t).getD p [] = t := by
  rw [List.getD_eq_getElem?_getD, List.getElem?_set_self h]
  rfl

theorem flock_tables (k : Kernel ι) (d : ℕ) (mode : LockMode) :
    (k.flock d mode).2.tables = k.tables := by
  unfold flock
  split_ifs <;> rfl

omit [DecidableEq ι] in
theorem onDescription_cases (k : Kernel ι) (p fd : ℕ) (f : ℕ → Bool × Kernel ι) :
    k.onDescription p fd f = (false, k) ∨
      ∃ d, k.description? p fd = some d ∧ k.onDescription p fd f = f d := by
  unfold onDescription
  cases hd : k.description? p fd with
  | none => exact Or.inl rfl
  | some d => exact Or.inr ⟨d, rfl, rfl⟩

/-- A call about a lock changes no table. -/
theorem perform_lock_tables (c : Call ι) (h : (∃ fd mode, c = .flock fd mode) ∨ ∃ fd, c = .unlock fd) :
    (k.perform p c).2.tables = k.tables := by
  rcases h with ⟨fd, mode, rfl⟩ | ⟨fd, rfl⟩
  · rcases k.onDescription_cases p fd fun d => k.flock d mode with h | ⟨d, _, h⟩
    · exact congrArg (fun r => r.2.tables) h
    · exact (congrArg (fun r => r.2.tables) h).trans (k.flock_tables d mode)
  · rcases k.onDescription_cases p fd fun d => (true, k.unlocked d) with h | ⟨d, _, h⟩
    · exact congrArg (fun r => r.2.tables) h
    · exact congrArg (fun r => r.2.tables) h

/-- A process changes no table but its own; a new process has a number of its own. -/
theorem perform_table (c : Call ι) (hq : q < k.tables.length) (hne : q ≠ p) :
    (k.perform p c).2.table q = k.table q := by
  unfold table
  cases c with
  | openFile fd inode => exact set_table_of_ne _ _ hne
  | duplicate fd fd' => exact set_table_of_ne _ _ hne
  | close fd => exact set_table_of_ne _ _ hne
  | flock fd mode => rw [perform_lock_tables _ (Or.inl ⟨fd, mode, rfl⟩)]
  | unlock fd => rw [perform_lock_tables _ (Or.inr ⟨fd, rfl⟩)]
  | fork =>
    change (k.tables ++ [k.table p]).getD q [] = _
    rw [List.getD_eq_getElem?_getD, List.getD_eq_getElem?_getD, List.getElem?_append_left hq]
  | exit => exact set_table_of_ne _ _ hne

theorem perform_running (c : Call ι) : k.tables.length ≤ (k.perform p c).2.tables.length := by
  cases c with
  | openFile fd inode => exact (List.length_set).ge
  | duplicate fd fd' => exact (List.length_set).ge
  | close fd => exact (List.length_set).ge
  | flock fd mode => rw [perform_lock_tables _ (Or.inl ⟨fd, mode, rfl⟩)]
  | unlock fd => rw [perform_lock_tables _ (Or.inr ⟨fd, rfl⟩)]
  | fork =>
    change _ ≤ (k.tables ++ [k.table p]).length
    rw [List.length_append]
    exact Nat.le_add_right _ _
  | exit => exact (List.length_set).ge

omit [DecidableEq ι] in
theorem holds_set {tables : List Table} {t : Table} {r : ℕ} {e : ℕ × ℕ}
    (he : e ∈ (tables.set p t).getD r []) : e ∈ tables.getD r [] ∨ r = p ∧ e ∈ t := by
  by_cases hrp : r = p
  · subst hrp
    by_cases hlen : r < tables.length
    · rw [set_table_self t hlen] at he
      exact Or.inr ⟨rfl, he⟩
    · rw [List.set_eq_of_length_le (Nat.le_of_not_lt hlen)] at he
      exact Or.inl he
  · rw [set_table_of_ne _ _ hrp] at he
    exact Or.inl he

/-- Where a process has a descriptor of a description after a call, it had one before, or the
process of the call had one, or the description is new. -/
theorem perform_holds {c : Call ι} {r : ℕ} (h : (k.perform p c).2.Holds r d) :
    k.Holds r d ∨ k.Holds p d ∨ r = p ∧ d = k.descriptions.length := by
  obtain ⟨e, he, rfl⟩ := h
  cases c with
  | openFile fd inode =>
    rcases holds_set he with he | ⟨rfl, he⟩
    · exact Or.inl ⟨e, he, rfl⟩
    · rcases List.mem_cons.mp he with rfl | he
      · exact Or.inr (Or.inr ⟨rfl, rfl⟩)
      · exact Or.inl ⟨e, List.mem_of_mem_filter he, rfl⟩
  | duplicate fd fd' =>
    rcases holds_set he with he | ⟨rfl, he⟩
    · exact Or.inl ⟨e, he, rfl⟩
    · exact Or.inl (mem_duplicateTable he)
  | close fd =>
    rcases holds_set he with he | ⟨rfl, he⟩
    · exact Or.inl ⟨e, he, rfl⟩
    · exact Or.inl ⟨e, List.mem_of_mem_filter he, rfl⟩
  | flock fd mode =>
    unfold table at he
    rw [perform_lock_tables _ (Or.inl ⟨fd, mode, rfl⟩)] at he
    exact Or.inl ⟨e, he, rfl⟩
  | unlock fd =>
    unfold table at he
    rw [perform_lock_tables _ (Or.inr ⟨fd, rfl⟩)] at he
    exact Or.inl ⟨e, he, rfl⟩
  -- the child has the caller's table, and the others keep theirs
  | fork =>
    change e ∈ (k.tables ++ [k.table p]).getD r [] at he
    rw [List.getD_eq_getElem?_getD] at he
    by_cases hr : r < k.tables.length
    · rw [List.getElem?_append_left hr, ← List.getD_eq_getElem?_getD] at he
      exact Or.inl ⟨e, he, rfl⟩
    · rw [List.getElem?_append_right (Nat.le_of_not_lt hr)] at he
      cases hz : r - k.tables.length with
      | zero =>
        rw [hz] at he
        exact Or.inr (Or.inl ⟨e, he, rfl⟩)
      | succ n =>
        rw [hz] at he
        cases he
  | exit =>
    rcases holds_set he with he | ⟨_, he⟩
    · exact Or.inl ⟨e, he, rfl⟩
    · cases he

/-- What one process has to itself, the calls of others leave to it. -/
theorem Private.perform (h : k.Private q d) (hne : p ≠ q) (hd : d < k.descriptions.length)
    (c : Call ι) : (k.perform p c).2.Private q d := by
  intro r hr hholds
  rcases perform_holds hholds with hholds | hholds | ⟨_, rfl⟩
  · exact h r hr hholds
  · exact h p hne hholds
  · exact absurd hd (Nat.lt_irrefl _)

omit [DecidableEq ι] in
theorem relocked_of_ne {descriptions : List (Description ι)} {d' : ℕ} (lock : Option LockMode)
    (h : d' ≠ d) : (relocked descriptions d' lock)[d]? = descriptions[d]? := by
  simp [relocked, h]

theorem flock_of_ne {d' : ℕ} (mode : LockMode) (h : d' ≠ d) :
    (k.flock d' mode).2.descriptions[d]? = k.descriptions[d]? := by
  unfold flock
  split_ifs
  · rfl
  · exact relocked_of_ne (some mode) h
  · exact relocked_of_ne none h

/-- A process changes no description that it has no descriptor of. -/
theorem perform_description {x : Description ι} (c : Call ι) (h : ¬ k.Holds p d)
    (hx : k.descriptions[d]? = some x) : (k.perform p c).2.descriptions[d]? = some x := by
  have hlen : d < k.descriptions.length := by
    rw [List.getElem?_eq_some_iff] at hx
    exact hx.1
  have hne (fd d' : ℕ) (hd' : k.description? p fd = some d') : d' ≠ d := by
    rintro rfl
    exact h (description_holds hd')
  cases c with
  | openFile fd inode => exact (List.getElem?_append_left hlen).trans hx
  | duplicate fd fd' => exact hx
  | close fd => exact hx
  | flock fd mode =>
    rcases k.onDescription_cases p fd fun d => k.flock d mode with heq | ⟨d', hd', heq⟩
    · exact (congrArg (fun r => r.2.descriptions[d]?) heq).trans hx
    · exact (congrArg (fun r => r.2.descriptions[d]?) heq).trans
        ((flock_of_ne mode (hne fd d' hd')).trans hx)
  | unlock fd =>
    rcases k.onDescription_cases p fd fun d => (true, k.unlocked d) with heq | ⟨d', hd', heq⟩
    · exact (congrArg (fun r => r.2.descriptions[d]?) heq).trans hx
    · exact (congrArg (fun r => r.2.descriptions[d]?) heq).trans
        ((relocked_of_ne none (hne fd d' hd')).trans hx)
  | fork => exact hx
  | exit => exact hx

/-- No call changes the file of a description. -/
theorem perform_inode {x : Description ι} (c : Call ι) (hx : k.descriptions[d]? = some x) :
    ∃ y, (k.perform p c).2.descriptions[d]? = some y ∧ y.inode = x.inode := by
  have hlen : d < k.descriptions.length := (List.getElem?_eq_some_iff.mp hx).1
  have hrelocked (d' : ℕ) (lock : Option LockMode) :
      ∃ y, (relocked k.descriptions d' lock)[d]? = some y ∧ y.inode = x.inode := by
    refine ⟨_, by rw [relocked, List.getElem?_modify, hx]; rfl, ?_⟩
    dsimp only
    split_ifs <;> rfl
  cases c with
  | openFile fd inode => exact ⟨x, (List.getElem?_append_left hlen).trans hx, rfl⟩
  | duplicate fd fd' => exact ⟨x, hx, rfl⟩
  | close fd => exact ⟨x, hx, rfl⟩
  | flock fd mode =>
    rcases k.onDescription_cases p fd fun d => k.flock d mode with heq | ⟨d', _, heq⟩
    · exact ⟨x, (congrArg (fun r => r.2.descriptions[d]?) heq).trans hx, rfl⟩
    · have hflock : ∃ y, (k.flock d' mode).2.descriptions[d]? = some y ∧ y.inode = x.inode := by
        unfold flock
        split_ifs
        · exact ⟨x, hx, rfl⟩
        · exact hrelocked d' (some mode)
        · exact hrelocked d' none
      obtain ⟨y, hy, hyx⟩ := hflock
      exact ⟨y, (congrArg (fun r => r.2.descriptions[d]?) heq).trans hy, hyx⟩
  | unlock fd =>
    rcases k.onDescription_cases p fd fun d => (true, k.unlocked d) with heq | ⟨d', _, heq⟩
    · exact ⟨x, (congrArg (fun r => r.2.descriptions[d]?) heq).trans hx, rfl⟩
    · obtain ⟨y, hy, hyx⟩ := hrelocked d' none
      exact ⟨y, (congrArg (fun r => r.2.descriptions[d]?) heq).trans hy, hyx⟩
  | fork => exact ⟨x, hx, rfl⟩
  | exit => exact ⟨x, hx, rfl⟩

end Frame

end Kernel

end FileLock
