import Mathlib.Tactic
import Mathlib.Data.List.GetD

/-! A file that is replaced by writing a temporary file and renaming it. Operations may
fail before or after they took effect, and the process may die between any two of them.
After a power loss the name may refer to any file it referred to since its directory was
last synchronized, and a file that was not synchronized may hold anything. -/
namespace DurableFile

variable {ν C ε α β : Type}

structure Inode (C : Type) where
  contents : C
  synced : Bool
  deriving DecidableEq

/-- `revertible` holds what the name referred to before, since the last synchronization
of the directory. -/
structure Disk (ν C : Type) where
  target : Option (Inode C)
  revertible : List (Option (Inode C))
  temps : List (ν × Inode C)

/-- How an operation ends. One that failed may have been refused, or may have done its
work all the same; `left` is what a disturbed write left behind. -/
inductive Outcome (C : Type)
  | done
  | refused
  | disturbed (left : C)
  deriving DecidableEq

inductive Result (ε α : Type)
  | ok (a : α)
  | threw (e : ε)
  | crashed

/-- A computation over the outcomes of the operations it performs, in order. The process
dies where there are no more of them. -/
def Files (ν C ε α : Type) : Type :=
  List (Outcome C) → Disk ν C → Result ε α × List (Outcome C) × Disk ν C

namespace Files

def pure (a : α) : Files ν C ε α := fun script d => (.ok a, script, d)

def throw (e : ε) : Files ν C ε α := fun script d => (.threw e, script, d)

def bind (x : Files ν C ε α) (f : α → Files ν C ε β) : Files ν C ε β := fun script d =>
  match x script d with
  | (.ok a, script, d) => f a script d
  | (.threw e, script, d) => (.threw e, script, d)
  | (.crashed, script, d) => (.crashed, script, d)

instance : Monad (Files ν C ε) where
  pure := Files.pure
  bind := Files.bind

/-- The value or the error. A process that died does not return here. -/
def attempt (x : Files ν C ε α) : Files ν C ε (Except ε α) := fun script d =>
  match x script d with
  | (.ok a, script, d) => (.ok (.ok a), script, d)
  | (.threw e, script, d) => (.ok (.error e), script, d)
  | (.crashed, script, d) => (.crashed, script, d)

def get : Files ν C ε (Disk ν C) := fun script d => (.ok d, script, d)

/-- One operation, with its effect and what it may leave when it is disturbed. -/
def operation (e : ε) (effect : Disk ν C → Disk ν C) (disturbed : C → Disk ν C → Disk ν C) :
    Files ν C ε Unit := fun script d =>
  match script with
  | [] => (.crashed, [], d)
  | .done :: script => (.ok (), script, effect d)
  | .refused :: script => (.threw e, script, d)
  | .disturbed left :: script => (.threw e, script, disturbed left d)

/-- An operation that changes nothing, or nothing that is modelled. -/
def passive (e : ε) : Files ν C ε Unit := operation e id fun _ => id

end Files

namespace Disk

variable [DecidableEq ν]

def setTemp (name : ν) (inode : Inode C) (d : Disk ν C) : Disk ν C :=
  { d with temps := (name, inode) :: d.temps.filter (·.1 ≠ name) }

def temp (name : ν) (d : Disk ν C) : Option (Inode C) := d.temps.lookup name

def unlinkTemp (name : ν) (d : Disk ν C) : Disk ν C :=
  { d with temps := d.temps.filter (·.1 ≠ name) }

def syncInode (name : ν) (d : Disk ν C) : Disk ν C :=
  match d.temp name with
  | none => d
  | some inode => d.setTemp name { inode with synced := true }

/-- The name refers to what the temporary name referred to. -/
def replaceTarget (name : ν) (d : Disk ν C) : Disk ν C :=
  match d.temp name with
  | none => d
  | some inode =>
    { d.unlinkTemp name with target := some inode, revertible := d.target :: d.revertible }

def settleDirectory (d : Disk ν C) : Disk ν C := { d with revertible := [] }

/-- What a power loss leaves: one of the files that the name referred to, and anything at
all in a file that was not synchronized. -/
def powerLoss (choice : ℕ) (torn : C) (temps : List (ν × Inode C)) (d : Disk ν C) : Disk ν C where
  target := ((d.target :: d.revertible).getD choice d.target).map fun i =>
    if i.synced then i else ⟨torn, true⟩
  revertible := []
  temps := temps

end Disk

section Operations

variable [DecidableEq ν] (e : ε)

/-- Creates the temporary file, which must not exist. -/
def createTemp (name : ν) (empty : C) : Files ν C ε Unit := do
  let d ← Files.get
  match d.temp name with
  | some _ => Files.throw e
  | none => Files.operation e (·.setTemp name ⟨empty, false⟩) fun _ d => d.setTemp name ⟨empty, false⟩

def writeTemp (name : ν) (contents : C) : Files ν C ε Unit :=
  Files.operation e (·.setTemp name ⟨contents, false⟩) fun left d => d.setTemp name ⟨left, false⟩

def syncTemp (name : ν) : Files ν C ε Unit :=
  Files.operation e (·.syncInode name) fun _ d => d.syncInode name

def renameTemp (name : ν) : Files ν C ε Unit :=
  Files.operation e (·.replaceTarget name) fun _ d => d.replaceTarget name

def syncDirectory : Files ν C ε Unit :=
  Files.operation e (·.settleDirectory) fun _ d => d.settleDirectory

def removeTemp (name : ν) : Files ν C ε Unit :=
  Files.operation e (·.unlinkTemp name) fun _ d => d.unlinkTemp name

end Operations

/-! Rules. `crash` is what holds wherever the process may die. -/

/-- From `pre`, a computation that returns ends in `post`, one that throws in `fail`, and
one that dies in `crash`. -/
def Triple (pre : Disk ν C → Prop) (x : Files ν C ε α) (post : α → Disk ν C → Prop)
    (fail crash : Disk ν C → Prop) : Prop :=
  ∀ script d, pre d →
    match x script d with
    | (.ok a, _, d') => post a d'
    | (.threw _, _, d') => fail d'
    | (.crashed, _, d') => crash d'

namespace Triple

variable {pre fail crash : Disk ν C → Prop} {post : α → Disk ν C → Prop} {x : Files ν C ε α}

theorem weaken {pre' fail' crash' : Disk ν C → Prop} {post' : α → Disk ν C → Prop}
    (h : Triple pre x post fail crash) (hpre : ∀ d, pre' d → pre d)
    (hpost : ∀ a d, post a d → post' a d) (hfail : ∀ d, fail d → fail' d)
    (hcrash : ∀ d, crash d → crash' d) : Triple pre' x post' fail' crash' := by
  intro script d hd
  have hx := h script d (hpre d hd)
  rcases hrun : x script d with ⟨result, script', d'⟩
  rw [hrun] at hx
  cases result with
  | ok a => exact hpost a d' hx
  | threw e => exact hfail d' hx
  | crashed => exact hcrash d' hx

theorem pure {a : α} (h : ∀ d, pre d → post a d) :
    Triple pre (Pure.pure a : Files ν C ε α) post fail crash := fun _ d hd => h d hd

theorem throw {e : ε} (h : ∀ d, pre d → fail d) :
    Triple pre (Files.throw e : Files ν C ε α) post fail crash := fun _ d hd => h d hd

theorem bind {f : α → Files ν C ε β} {mid : α → Disk ν C → Prop} {post : β → Disk ν C → Prop}
    (hx : Triple pre x mid fail crash) (hf : ∀ a, Triple (mid a) (f a) post fail crash) :
    Triple pre (x >>= f) post fail crash := by
  intro script d hd
  have hmid := hx script d hd
  show match Files.bind x f script d with
    | (.ok a, _, d') => post a d'
    | (.threw _, _, d') => fail d'
    | (.crashed, _, d') => crash d'
  unfold Files.bind
  rcases hrun : x script d with ⟨result, script', d'⟩
  rw [hrun] at hmid
  cases result with
  | ok a => exact hf a script' d' hmid
  | threw e => exact hmid
  | crashed => exact hmid

theorem get (post : Disk ν C → Disk ν C → Prop) (h : ∀ d, pre d → post d d) :
    Triple pre (Files.get : Files ν C ε _) post fail crash := fun _ d hd => h d hd

/-- An error that is caught is a value like any other. -/
theorem attempt {post : Except ε α → Disk ν C → Prop}
    (h : Triple pre x (fun a => post (.ok a)) (fun d => ∀ e, post (.error e) d) crash) :
    Triple pre x.attempt post fail crash := by
  intro script d hd
  have hx := h script d hd
  unfold Files.attempt
  rcases hrun : x script d with ⟨result, script', d'⟩
  rw [hrun] at hx
  cases result with
  | ok a => exact hx
  | threw e => exact hx e
  | crashed => exact hx

theorem operation {e : ε} {effect : Disk ν C → Disk ν C} {disturbed : C → Disk ν C → Disk ν C}
    {post : Unit → Disk ν C → Prop} (hdone : ∀ d, pre d → post () (effect d))
    (hrefused : ∀ d, pre d → fail d) (hdisturbed : ∀ left d, pre d → fail (disturbed left d))
    (hcrash : ∀ d, pre d → crash d) :
    Triple pre (Files.operation e effect disturbed) post fail crash := by
  intro script d hd
  cases script with
  | nil => exact hcrash d hd
  | cons outcome script =>
    cases outcome with
    | done => exact hdone d hd
    | refused => exact hrefused d hd
    | disturbed left => exact hdisturbed left d hd

theorem passive (e : ε) (hfail : ∀ d, pre d → fail d) (hcrash : ∀ d, pre d → crash d) :
    Triple pre (Files.passive e : Files ν C ε Unit) (fun _ => pre) fail crash :=
  operation (fun _ hd => hd) hfail (fun _ => hfail) hcrash

end Triple

/-! Operations that all succeed. -/

theorem Files.bind_of_ok {x : Files ν C ε α} {f : α → Files ν C ε β}
    {script script' : List (Outcome C)} {d d' : Disk ν C} {a : α} (h : x script d = (.ok a, script', d')) :
    (x >>= f) script d = f a script' d' := by
  show Files.bind x f script d = f a script' d'
  unfold Files.bind
  rw [h]

theorem Files.bind_of_crashed {x : Files ν C ε α} {f : α → Files ν C ε β}
    {script : List (Outcome C)} {d : Disk ν C} (h : (x script d).1 = .crashed) :
    ((x >>= f) script d).1 = .crashed := by
  show (Files.bind x f script d).1 = .crashed
  unfold Files.bind
  rcases hrun : x script d with ⟨result, script', d'⟩
  rw [hrun] at h
  obtain rfl : result = .crashed := h
  rfl

/-- From `pre`, where no operation fails, the computation needs some number of operations,
returns with them and ends in `post`. With fewer of them the process dies. -/
def Succeeds (pre : Disk ν C → Prop) (x : Files ν C ε α) (post : α → Disk ν C → Prop) : Prop :=
  ∀ d, pre d → ∃ needed a d', post a d' ∧
    (∀ n, x (List.replicate (n + needed) .done) d = (.ok a, List.replicate n .done, d')) ∧
    ∀ n < needed, (x (List.replicate n .done) d).1 = .crashed

namespace Succeeds

variable {pre : Disk ν C → Prop} {post : α → Disk ν C → Prop} {x : Files ν C ε α}

theorem weaken {pre' : Disk ν C → Prop} {post' : α → Disk ν C → Prop}
    (h : Succeeds pre x post) (hpre : ∀ d, pre' d → pre d) (hpost : ∀ a d, post a d → post' a d) :
    Succeeds pre' x post' := by
  intro d hd
  obtain ⟨needed, a, d', hp, hok, hcrash⟩ := h d (hpre d hd)
  exact ⟨needed, a, d', hpost a d' hp, hok, hcrash⟩

theorem of_false (h : ∀ d, ¬ pre d) : Succeeds pre x post := fun d hd => absurd hd (h d)

/-- A computation without operations. -/
theorem pure {a : α} (h : ∀ d, pre d → post a d) :
    Succeeds pre (Pure.pure a : Files ν C ε α) post := by
  intro d hd
  exact ⟨0, a, d, h d hd, fun n => rfl, fun n hn => absurd hn (Nat.not_lt_zero n)⟩

theorem get : Succeeds pre (Files.get : Files ν C ε _) fun a d => pre d ∧ a = d := by
  intro d hd
  exact ⟨0, d, d, ⟨hd, rfl⟩, fun n => rfl, fun n hn => absurd hn (Nat.not_lt_zero n)⟩

theorem operation {e : ε} {effect : Disk ν C → Disk ν C} {disturbed : C → Disk ν C → Disk ν C}
    {post : Unit → Disk ν C → Prop} (h : ∀ d, pre d → post () (effect d)) :
    Succeeds pre (Files.operation e effect disturbed) post := by
  intro d hd
  refine ⟨1, (), effect d, h d hd, fun n => rfl, fun n hn => ?_⟩
  obtain rfl : n = 0 := by omega
  rfl

theorem passive (e : ε) : Succeeds pre (Files.passive e : Files ν C ε Unit) fun _ => pre :=
  operation fun _ hd => hd

theorem bind {f : α → Files ν C ε β} {mid : α → Disk ν C → Prop} {post : β → Disk ν C → Prop}
    (hx : Succeeds pre x mid) (hf : ∀ a, Succeeds (mid a) (f a) post) :
    Succeeds pre (x >>= f) post := by
  intro d hd
  obtain ⟨k, a, d₁, hmid, hok, hcrash⟩ := hx d hd
  obtain ⟨l, b, d₂, hpost, hok', hcrash'⟩ := hf a d₁ hmid
  refine ⟨l + k, b, d₂, hpost, fun n => ?_, fun n hn => ?_⟩
  · rw [← Nat.add_assoc, Files.bind_of_ok (hok (n + l))]
    exact hok' n
  · -- the operations run out in the first part or in the second
    by_cases hk : n < k
    · exact Files.bind_of_crashed (hcrash n hk)
    · obtain ⟨m, rfl⟩ := Nat.exists_eq_add_of_le' (not_lt.mp hk)
      rw [Files.bind_of_ok (hok m)]
      exact hcrash' m (by omega)

theorem attempt (h : Succeeds pre x post) :
    Succeeds pre x.attempt fun r d => ∃ a, r = .ok a ∧ post a d := by
  intro d hd
  obtain ⟨k, a, d', hpost, hok, hcrash⟩ := h d hd
  refine ⟨k, .ok a, d', ⟨a, rfl, hpost⟩, fun n => ?_, fun n hn => ?_⟩
  · unfold Files.attempt
    rw [hok n]
  · have hdied := hcrash n hn
    unfold Files.attempt
    rcases hrun : x (List.replicate n .done) d with ⟨result, rest, d''⟩
    rw [hrun] at hdied
    obtain rfl : result = .crashed := hdied
    rfl

/-- What is known of a computation that returns. -/
theorem of_triple {fail crash : Disk ν C → Prop} {post' : α → Disk ν C → Prop}
    (h : Succeeds pre x post) (ht : Triple pre x post' fail crash) :
    Succeeds pre x fun a d => post a d ∧ post' a d := by
  intro d hd
  obtain ⟨k, a, d', hpost, hok, hcrash⟩ := h d hd
  have hpost' := ht (List.replicate (0 + k) .done) d hd
  rw [hok 0] at hpost'
  exact ⟨k, a, d', ⟨hpost, hpost'⟩, hok, hcrash⟩

end Succeeds

/-! What the name may refer to. -/

namespace Disk

/-- Every file that the name refers to, or may refer to after a power loss, is complete
on disk and holds what `P` allows; and a name that refers to no file never did. -/
structure Holds (P : Option C → Prop) (d : Disk ν C) : Prop where
  entries : ∀ entry ∈ d.target :: d.revertible,
    (∀ i ∈ entry, i.synced = true) ∧ P (entry.map (·.contents))
  missing : d.target = none → ∀ entry ∈ d.revertible, entry = none

variable {P Q : Option C → Prop} {d : Disk ν C}

theorem Holds.mono (h : d.Holds P) (hpq : ∀ c, P c → Q c) : d.Holds Q :=
  ⟨fun entry he => ⟨(h.entries entry he).1, hpq _ (h.entries entry he).2⟩, h.missing⟩

theorem Holds.target (h : d.Holds P) : P (d.target.map (·.contents)) :=
  (h.entries d.target List.mem_cons_self).2

/-- Where the name refers to no file, no power loss brings one back. -/
theorem Holds.of_missing (h : d.Holds P) (ht : d.target = none) (hq : Q none) : d.Holds Q := by
  refine ⟨fun entry he => ?_, h.missing⟩
  obtain rfl : entry = none := by
    rcases List.mem_cons.mp he with rfl | he
    · exact ht
    · exact h.missing ht entry he
  exact ⟨by simp, hq⟩

/-- A power loss keeps what holds of every file that the name may refer to. -/
theorem Holds.powerLoss (h : d.Holds P) (choice : ℕ) (torn : C) (temps : List (ν × Inode C)) :
    (d.powerLoss choice torn temps).Holds P := by
  have hmem : (d.target :: d.revertible).getD choice d.target ∈ d.target :: d.revertible := by
    by_cases hc : choice < (d.target :: d.revertible).length
    · rw [List.getD_eq_getElem _ _ hc]
      exact List.getElem_mem hc
    · rw [List.getD_eq_default _ _ (by omega)]
      exact List.mem_cons_self
  obtain ⟨hsynced, hp⟩ := h.entries _ hmem
  have hsame : (d.powerLoss choice torn temps).target =
      (d.target :: d.revertible).getD choice d.target := by
    unfold Disk.powerLoss
    simp only
    cases hentry : (d.target :: d.revertible).getD choice d.target with
    | none => rfl
    | some i =>
      have hi : i.synced = true := hsynced i (Option.mem_def.mpr hentry)
      simp [hi]
  refine ⟨fun entry he => ?_, fun _ entry he => by simp [Disk.powerLoss] at he⟩
  obtain rfl : entry = (d.powerLoss choice torn temps).target := by
    simpa [Disk.powerLoss] using he
  rw [hsame]
  exact ⟨hsynced, hp⟩

theorem Holds.settleDirectory (h : d.Holds P) : d.settleDirectory.Holds P := by
  refine ⟨fun entry he => ?_, fun _ entry he => by simp [Disk.settleDirectory] at he⟩
  obtain rfl : entry = d.target := by simpa [Disk.settleDirectory] using he
  exact h.entries _ List.mem_cons_self

/-- A name that refers to one durable file, with its directory synchronized. -/
structure Durable (contents : C) (d : Disk ν C) : Prop where
  target : d.target = some ⟨contents, true⟩
  settled : d.revertible = []

theorem Durable.holds {contents : C} (h : d.Durable contents) (hp : P (some contents)) :
    d.Holds P := by
  have hentries : ∀ entry ∈ d.target :: d.revertible, entry = some ⟨contents, true⟩ := by
    intro entry he
    rw [h.target, h.settled] at he
    exact List.mem_singleton.mp he
  refine ⟨fun entry he => ?_, fun ht => by rw [h.target] at ht; cases ht⟩
  obtain rfl := hentries entry he
  refine ⟨fun i hi => ?_, hp⟩
  obtain rfl := Option.some.inj hi
  rfl

variable [DecidableEq ν]

@[simp] theorem temp_setTemp (name : ν) (inode : Inode C) :
    (d.setTemp name inode).temp name = some inode := by
  simp [temp, setTemp]

theorem syncInode_of_temp {name : ν} {inode : Inode C} (ht : d.temp name = some inode) :
    d.syncInode name = d.setTemp name { inode with synced := true } := by
  unfold syncInode
  rw [ht]

theorem Holds.setTemp (h : d.Holds P) (name : ν) (inode : Inode C) :
    (d.setTemp name inode).Holds P := ⟨h.entries, h.missing⟩

theorem Holds.unlinkTemp (h : d.Holds P) (name : ν) : (d.unlinkTemp name).Holds P :=
  ⟨h.entries, h.missing⟩

theorem replaceTarget_target {name : ν} {inode : Inode C} (ht : d.temp name = some inode) :
    (d.replaceTarget name).target = some inode := by
  unfold Disk.replaceTarget
  rw [ht]

/-- A synchronized file may take the place of the target. -/
theorem Holds.replaceTarget (h : d.Holds P) {name : ν} {contents : C}
    (ht : d.temp name = some ⟨contents, true⟩) (hp : P (some contents)) :
    (d.replaceTarget name).Holds P := by
  have htarget := replaceTarget_target ht
  refine ⟨fun entry he => ?_, fun hnone => by rw [htarget] at hnone; cases hnone⟩
  unfold Disk.replaceTarget at he
  rw [ht] at he
  rcases List.mem_cons.mp he with rfl | he
  · refine ⟨fun i hi => ?_, hp⟩
    obtain rfl := Option.some.inj hi
    rfl
  · exact h.entries entry he

/-- What the steps of a replacement by `contents` keep. -/
structure Keeps (contents : C) (I : Disk ν C → Prop) : Prop where
  setTemp : ∀ d name inode, I d → I (d.setTemp name inode)
  unlinkTemp : ∀ d name, I d → I (d.unlinkTemp name)
  replaceTarget : ∀ d name, I d → d.temp name = some ⟨contents, true⟩ → I (d.replaceTarget name)
  settleDirectory : ∀ d, I d → I d.settleDirectory

theorem keeps_holds {contents : C} (hp : P (some contents)) :
    Keeps contents (Holds P : Disk ν C → Prop) where
  setTemp _ name inode hd := hd.setTemp name inode
  unlinkTemp _ name hd := hd.unlinkTemp name
  replaceTarget _ _ hd ht := hd.replaceTarget ht hp
  settleDirectory _ hd := hd.settleDirectory

/-- What the name refers to now, without a power loss in view. -/
def Reads (P : Option C → Prop) (d : Disk ν C) : Prop := P (d.target.map (·.contents))

theorem keeps_reads {contents : C} (hp : P (some contents)) :
    Keeps contents (Reads P : Disk ν C → Prop) where
  setTemp _ _ _ hd := hd
  unlinkTemp _ _ hd := hd
  replaceTarget _ _ _ ht := by
    rw [Reads, replaceTarget_target ht]
    exact hp
  settleDirectory _ hd := hd

end Disk

end DurableFile
