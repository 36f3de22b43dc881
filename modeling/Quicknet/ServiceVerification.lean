import Quicknet.ServiceOwnership

/-! What the program knows when the check of the lock has returned. -/
namespace Quicknet.Service
open Json (Text text)
open Interaction (Prog)
open Interaction.Prog (Secure Stable)
open FileLock (Kernel LockMode Description)
open Quicknet.Cli

/-- The process has a descriptor of the verified file that is locked exclusively. -/
def Shows (p : ℕ) (lock : VerifiedServiceLock) (h : Host) : Prop :=
  ∃ fd d, h.kernel.description? p fd = some d ∧
    h.kernel.descriptions[d]? = some ⟨lock.identity, some .exclusive⟩

/-- The checkpoint file lies in the state directory, under a name of its own. -/
structure Placed (paths : Paths) (file stateDirectory : Text) : Prop where
  directory : paths.realpath (paths.dirname (paths.resolve file)) = some stateDirectory
  notLock : paths.basename (paths.resolve file) ≠ LOCK_FILENAME
  notStatus : paths.basename (paths.resolve file) ≠ DAEMON_STATUS_FILENAME

section Calls

variable {paths : Paths} {p : ℕ} {h : Host} {ε α : Type} {rely : Host → Host → Prop}
  {K : Host → Prop}

/-- A call that changes nothing, in a host that satisfies what is stable. -/
theorem secure_readOnly {call : SystemCall} (hc : ¬ call.Changes) (hK : Stable rely K)
    {k : call.Reply → Calls ε α} {post : Except ε α → Host → Prop} (hh : K h)
    (hk : ∀ r h, K h → Answers paths p call h r h → (k r).Secure rely (Answers paths p) post h) :
    (Prog.read call k).Secure rely (Answers paths p) post h := by
  intro h₁ hrely r h₂ hr
  obtain rfl := answer_readOnly hc hr
  exact hk r _ (hK h _ hrely hh) hr

theorem secure_asked (call : SystemCall) (hc : ¬ call.Changes) (hK : Stable rely K)
    {f : call.Reply → Calls ε α} {post : Except ε α → Host → Prop} (hh : K h)
    (hk : ∀ r h, K h → Answers paths p call h r h → (f r).Secure rely (Answers paths p) post h) :
    ((Prog.ask call).bind f).Secure rely (Answers paths p) post h :=
  secure_readOnly hc hK hh hk

theorem secure_orRefuse {β : Type} {reason : ServiceLockReason} {reply : Except Errno β}
    {f : β → Calls ServiceLockReason α} {post : Except ServiceLockReason α → Host → Prop}
    (herror : post (.error reason) h)
    (hok : ∀ b, reply = .ok b → (f b).Secure rely (Answers paths p) post h) :
    ((orRefuse reason reply).bind f).Secure rely (Answers paths p) post h := by
  cases reply with
  | ok b => exact hok b rfl
  | error e => exact herror

theorem answer_realpath {path real : Text} {h' : Host}
    (ha : Answers paths p (.realpath path) h (.ok real) h') : paths.realpath path = some real := by
  obtain ⟨o, ho⟩ := ha
  exact systemReply_ok (Prod.mk.inj (Option.some.inj ho)).1

/-- A regular file with one name is what the directory's entry says. -/
theorem answer_lockFile {directory : Text} {status : FileStatus} {h' : Host}
    (ha : Answers paths p (.lstat directory LOCK_FILENAME) h (.ok status) h')
    (hfile : status.isFile = true) (hlinks : status.nlink = 1) :
    h.entry directory = some (.regular status.identity 1) := by
  obtain ⟨o, ho⟩ := ha
  have hfound := systemReply_ok (Prod.mk.inj (Option.some.inj ho)).1
  rw [if_pos rfl] at hfound
  obtain ⟨entry, he, hstatus⟩ := Option.map_eq_some_iff.mp hfound
  subst hstatus
  rw [he]
  cases entry with
  | regular file links =>
    change links = 1 at hlinks
    rw [hlinks]
    rfl
  | symlink target => cases hfile
  | other => cases hfile

theorem answer_fstat {fd : ℕ} {identity : FileIdentity} {h' : Host}
    (ha : Answers paths p (.fstat fd) h (.ok identity) h') :
    ∃ d x, h.kernel.description? p fd = some d ∧ h.kernel.descriptions[d]? = some x ∧
      x.inode = identity := by
  obtain ⟨o, ho⟩ := ha
  have hfound := systemReply_ok (Prod.mk.inj (Option.some.inj ho)).1
  obtain ⟨x, hx, hinode⟩ := Option.map_eq_some_iff.mp hfound
  obtain ⟨d, hd, hdx⟩ := Option.bind_eq_some_iff.mp hx
  exact ⟨d, x, hd, hdx, hinode⟩

/-- The text of a kernel entry shows an exclusive lock only of the description itself. -/
theorem answer_fdinfo {fd d : ℕ} {x : Description FileIdentity} {info : Text} {h' : Host}
    (ha : Answers paths p (.fdinfo fd) h (.ok info) h') (hflock : hasExclusiveFlock info = true)
    (hd : h.kernel.description? p fd = some d) (hx : h.kernel.descriptions[d]? = some x) :
    x.lock = some .exclusive := by
  obtain ⟨o, ho⟩ := ha
  have hdescription : h.description? p fd = some x := by
    unfold Host.description?
    rw [hd]
    exact hx
  change (if o.kernelEntry.Valid then some (systemReply o.fails .missing
    ((h.description? p fd).map fun x => o.kernelEntry.render x.lock), h) else none) =
      some (Except.ok info, h') at ho
  by_cases hvalid : o.kernelEntry.Valid
  · rw [if_pos hvalid, hdescription] at ho
    have hfound := systemReply_ok (Prod.mk.inj (Option.some.inj ho)).1
    rw [← Option.some.inj hfound, hasExclusiveFlock_render hvalid] at hflock
    exact of_decide_eq_true hflock
  · rw [if_neg hvalid] at ho
    cases ho

end Calls

section Check

variable {paths : Paths} {p : ℕ} {directory : Option Text} {h : Host} {K : Host → Prop}

/-- The loop returns the expected identity, of a descriptor that shows the lock. -/
theorem secure_findOwnedDescriptor (hK : Stable (Spared p directory) K)
    (halive : ∀ h, K h → p < h.kernel.tables.length) (stateDirectory : Text)
    (expected : FileIdentity) (names : List Text) (hh : K h) :
    (findOwnedDescriptor stateDirectory expected names).Secure (Spared p directory)
      (Answers paths p) (fun out h => K h ∧ ∀ lock, out = .ok lock →
        lock = ⟨stateDirectory, expected⟩ ∧ Shows p lock h) h := by
  induction names generalizing h with
  | nil => exact ⟨hh, fun lock hout => (by cases hout)⟩
  | cons name rest ih =>
    unfold findOwnedDescriptor
    split
    · exact ih hh
    · rename_i fd _
      refine secure_readOnly id hK hh fun actual h hh hactual => ?_
      split
      · exact ih hh
      · rename_i identity
        split_ifs with hne
        · exact ih hh
        · -- the descriptor keeps its file until its kernel entry is read
          obtain ⟨d, x, hd, hx, hinode⟩ := answer_fstat hactual
          let K' (h : Host) : Prop := K h ∧ h.kernel.description? p fd = some d ∧
            ∃ y : Description FileIdentity, h.kernel.descriptions[d]? = some y ∧
              y.inode = identity
          have hK' : Stable (Spared p directory) K' := by
            rintro w w' hw ⟨hKw, hdw, y, hy, hyi⟩
            refine ⟨hK w w' hw hKw, ?_, ?_⟩
            · unfold Kernel.description?
              rw [hw.table (halive w hKw)]
              exact hdw
            · obtain ⟨z, hz, hzy⟩ := hw.inode d y hy
              exact ⟨z, hz, hzy.trans hyi⟩
          refine secure_readOnly id (K := K') hK' ⟨hh, hd, x, hx, hinode⟩
            fun info h hh hinfo => ?_
          split
          · exact ih hh.1
          · rename_i content
            split_ifs with hflock
            · obtain ⟨hKh, hd, y, hy, hyi⟩ := hh
              have hlock := answer_fdinfo hinfo hflock hd hy
              refine ⟨hKh, fun lock hout => ?_⟩
              cases hout
              refine ⟨by rw [not_not.mp hne], fd, d, hd, ?_⟩
              rw [hy, ← hyi, ← hlock]
            · exact ih hh.1

theorem secure_assertCheckpointPlacement (hK : Stable (Spared p directory) K)
    (value stateDirectory : Text) (hh : K h) :
    (assertCheckpointPlacement paths value stateDirectory).Secure (Spared p directory)
      (Answers paths p) (fun out h => K h ∧ (out = .ok () → Placed paths value stateDirectory)) h := by
  have hrefuse (reason : ServiceLockReason) (h : Host) (hh : K h) :
      (Prog.throw reason : Calls ServiceLockReason Unit).Secure (Spared p directory)
        (Answers paths p) (fun out h => K h ∧ (out = .ok () → Placed paths value stateDirectory)) h :=
    ⟨hh, fun hout => (by cases hout)⟩
  unfold assertCheckpointPlacement
  split_ifs with hempty
  · exact hrefuse _ h hh
  · simp only [Prog.bind_eq]
    refine secure_asked (.realpath _) id hK hh fun reply h hh hreply => ?_
    refine secure_orRefuse ⟨hh, fun hout => (by cases hout)⟩ fun real hreal => ?_
    subst hreal
    split_ifs with hplace
    · exact hrefuse _ h hh
    · simp only [not_or, not_not] at hplace
      obtain ⟨hdir, hlock, hstatus⟩ := hplace
      have hplaced : Placed paths value stateDirectory :=
        ⟨hdir ▸ answer_realpath hreply, hlock, hstatus⟩
      refine secure_asked (.lstat _ _) id hK hh fun file h hh _ => ?_
      split
      · split_ifs
        · exact ⟨hh, fun _ => hplaced⟩
        · exact hrefuse _ h hh
      · exact ⟨hh, fun _ => hplaced⟩
      · exact hrefuse _ h hh

/-- What the check returns: the state directory of the environment, the identity that the lock
file has by its name, and a descriptor that shows the lock. -/
structure Checked (paths : Paths) (p : ℕ) (directory : Option Text)
    (options : AssertServiceLockHeldOptions) (lock : VerifiedServiceLock) (h : Host) : Prop where
  resolved : paths.realpath (paths.resolve (options.stateDir.getD (text "./state"))) =
    some lock.stateDirectory
  named : directory = some lock.stateDirectory →
    h.entry lock.stateDirectory = some (.regular lock.identity 1)
  placed : ∀ file, options.checkpointFile = some file → Placed paths file lock.stateDirectory
  shows : Shows p lock h

theorem secure_assertServiceLockHeld (hK : Stable (Spared p directory) K)
    (halive : ∀ h, K h → p < h.kernel.tables.length) (linux : Bool)
    (options : AssertServiceLockHeldOptions) (hh : K h) :
    (assertServiceLockHeld paths linux options).Secure (Spared p directory) (Answers paths p)
      (fun out h => K h ∧ ∀ lock, out = .ok lock → Checked paths p directory options lock h) h := by
  have hrefuse (reason : ServiceLockReason) (h : Host) (hh : K h) :
      (Prog.throw reason : Calls ServiceLockReason VerifiedServiceLock).Secure (Spared p directory)
        (Answers paths p)
        (fun out h => K h ∧ ∀ lock, out = .ok lock → Checked paths p directory options lock h) h :=
    ⟨hh, fun _ hout => (by cases hout)⟩
  have herror (reason : ServiceLockReason) (h : Host) (hh : K h) : K h ∧ ∀ lock,
      (.error reason : Except ServiceLockReason VerifiedServiceLock) = .ok lock →
        Checked paths p directory options lock h := ⟨hh, fun _ hout => (by cases hout)⟩
  unfold assertServiceLockHeld
  split_ifs with hlinux
  · exact hrefuse _ h hh
  dsimp only
  split_ifs
  · exact hrefuse _ h hh
  simp only [Prog.bind_eq]
  refine secure_asked (.realpath _) id hK hh fun reply h hh hreply => ?_
  refine secure_orRefuse (herror _ h hh) fun real hreal => ?_
  subst hreal
  refine secure_asked (.stat _) id hK hh fun status h hh _ => ?_
  refine secure_orRefuse (herror _ h hh) fun status _ => ?_
  split_ifs
  · exact hrefuse _ h hh
  -- the rest of the check, once the checkpoint file has its place
  have hrest (hplaced : ∀ file, options.checkpointFile = some file → Placed paths file real)
      (h : Host) (hh : K h) : ((lstatSync real LOCK_FILENAME).bind fun expected =>
        (orRefuse ServiceLockReason.lockFile expected).bind fun expected =>
          if expected.isFile = false ∨ expected.nlink ≠ 1 then .throw .lockFile
          else readdirDescriptors.bind fun names =>
            (orRefuse ServiceLockReason.descriptor names).bind fun names =>
              findOwnedDescriptor real expected.identity names).Secure (Spared p directory)
        (Answers paths p)
        (fun out h => K h ∧ ∀ lock, out = .ok lock → Checked paths p directory options lock h) h := by
    refine secure_asked (.lstat _ _) id hK hh fun file h hh hfile => ?_
    refine secure_orRefuse (herror _ h hh) fun expected hexpected => ?_
    subst hexpected
    split_ifs with hregular
    · exact hrefuse _ h hh
    simp only [not_or, not_not, Bool.not_eq_false] at hregular
    have hentry := answer_lockFile hfile hregular.1 hregular.2
    -- the name keeps its file while the descriptors are read
    let K' (h : Host) : Prop :=
      K h ∧ (directory = some real → h.entry real = some (.regular expected.identity 1))
    have hK' : Stable (Spared p directory) K' := fun w w' hw hKw =>
      ⟨hK w w' hw hKw.1, fun hdir => hw.entry real _ hdir (hKw.2 hdir)⟩
    refine secure_asked (K := K') .readDescriptors id hK' ⟨hh, fun _ => hentry⟩ fun names h hh _ => ?_
    refine secure_orRefuse (herror _ h hh.1) fun names _ => ?_
    refine (secure_findOwnedDescriptor hK' (fun h hh => halive h hh.1) real expected.identity
      names hh).mono ?_
    rintro out h ⟨hh, hout⟩
    refine ⟨hh.1, fun lock hlock => ?_⟩
    obtain ⟨rfl, hshows⟩ := hout lock hlock
    exact ⟨answer_realpath hreply, hh.2, hplaced, hshows⟩
  split
  · rename_i hnone
    exact hrest (fun file hfile => (by rw [hnone] at hfile; cases hfile)) h hh
  · rename_i file hfile
    refine (secure_assertCheckpointPlacement hK file real hh).bind ?_ ?_
    · rintro ⟨⟩ h ⟨hh, hplaced⟩
      refine hrest (fun file' hfile' => ?_) h hh
      obtain rfl := Option.some.inj (hfile.symm.trans hfile')
      exact hplaced rfl
    · exact fun reason h herr => herror reason h herr.1

end Check

end Quicknet.Service
