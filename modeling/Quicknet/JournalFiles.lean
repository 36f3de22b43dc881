import Quicknet.SignerGate
import Quicknet.JournalRoundTrip
import Quicknet.Library.DurableFile

/-! `durableReplace`, `FileTransactionJournalStore` and `JournalPersistence`. File
operations end as the environment decides. The store's queue has one operation at most,
since the persistence that owns it waits for each, and is left out. -/
namespace Quicknet

open DurableFile
open Json (Text text)

/-- The process identifier and the UUID in the name of a temporary file. -/
abbrev TempName := ℕ

/-- The text that a file's bytes write in UTF-8, and `none` where they write none. -/
abbrev FileContents := Option Text

abbrev JournalDisk := Disk TempName FileContents

abbrev JournalFiles (α : Type) := Files TempName FileContents Failure α

/-! `durableReplace`. -/

def fileFailed : Failure := .error "File operation failed."

def replaceFailed : Failure :=
  .error "Checkpoint persistence did not complete. The on-disk outcome may be uncertain."

/-- An operation of the `catch` clause, whose own failure is ignored. -/
def ignoring (needed : Bool) (op : JournalFiles Unit) : JournalFiles Unit := do
  if needed then
    let _ ← op.attempt
  return ()

/-- What the variables `file`, `directory` and `ownsTemp` hold when an operation throws
decides what the `catch` clause closes and removes. -/
def orCleanUp (file directory ownsTemp : Bool) (name : TempName) (op : JournalFiles Unit) :
    JournalFiles Unit := do
  match ← op.attempt with
  | .ok () => return ()
  | .error _ =>
    ignoring file (Files.passive fileFailed)
    ignoring directory (Files.passive fileFailed)
    ignoring ownsTemp (removeTemp fileFailed name)
    Files.throw replaceFailed

/-- The passive operations are, in order: opening the directory, closing the file, the
hook before the rename, the hook after it, and closing the directory. -/
def durableReplace (name : TempName) (contents : Text) : JournalFiles Unit := do
  orCleanUp false false false name (Files.passive fileFailed)
  orCleanUp false true false name (createTemp fileFailed name (some []))
  orCleanUp true true true name (writeTemp fileFailed name (some contents))
  orCleanUp true true true name (syncTemp fileFailed name)
  orCleanUp false true true name (Files.passive fileFailed)
  orCleanUp false true true name (Files.passive fileFailed)
  orCleanUp false true true name (renameTemp fileFailed name)
  orCleanUp false true false name (Files.passive fileFailed)
  orCleanUp false true false name (syncDirectory fileFailed)
  ignoring true (Files.passive fileFailed)

/-! Bounds. -/

def MAX_RETAINED_ATTEMPTS : ℕ := 16
def MAX_SIGNED_TRANSACTIONS_PER_ATTEMPT : ℕ := 16

structure JournalBounds where
  maxRetainedAttempts : ℕ
  maxSignedTransactionsPerAttempt : ℕ
  deriving DecidableEq

def DEFAULT_JOURNAL_BOUNDS : JournalBounds :=
  ⟨MAX_RETAINED_ATTEMPTS, MAX_SIGNED_TRANSACTIONS_PER_ATTEMPT⟩

def validateJournalBounds (bounds : JournalBounds) : Except Failure Unit := do
  requireThat "Invalid retained-attempt bound."
    (1 ≤ bounds.maxRetainedAttempts ∧ bounds.maxRetainedAttempts ≤ MAX_RETAINED_ATTEMPTS)
  requireThat "Invalid signed-transaction bound."
    (1 ≤ bounds.maxSignedTransactionsPerAttempt ∧
      bounds.maxSignedTransactionsPerAttempt ≤ MAX_SIGNED_TRANSACTIONS_PER_ATTEMPT)

inductive JournalBound
  | retainedAttempts
  | signedTransactionsPerAttempt
  deriving DecidableEq

structure JournalBoundViolation where
  bound : JournalBound
  maximum : ℕ
  observed : ℕ
  attemptId : Option Text
  message : Text
  deriving DecidableEq

def retainedAttemptsViolation (observed maximum : ℕ) : JournalBoundViolation where
  bound := .retainedAttempts
  maximum := maximum
  observed := observed
  attemptId := none
  message := text "Journal retained-attempt count exceeds its limit: observed " ++
    Json.decimal observed ++ text ", maximum " ++ Json.decimal maximum ++ text "."

def signedTransactionsViolation (attemptId : Text) (observed maximum : ℕ) :
    JournalBoundViolation where
  bound := .signedTransactionsPerAttempt
  maximum := maximum
  observed := observed
  attemptId := some attemptId
  message := text "Journal signed-transaction count exceeds its per-attempt limit: attempt " ++
    attemptId ++ text ", observed " ++ Json.decimal observed ++ text ", maximum " ++
    Json.decimal maximum ++ text "."

def inspectJournalBounds (snapshot : SnapshotText) (bounds : JournalBounds) :
    List JournalBoundViolation :=
  (if bounds.maxRetainedAttempts < snapshot.attempts.length then
    [retainedAttemptsViolation snapshot.attempts.length bounds.maxRetainedAttempts] else []) ++
  snapshot.attempts.filterMap fun a =>
    if bounds.maxSignedTransactionsPerAttempt < a.signedTransactions.length then
      some (signedTransactionsViolation a.attemptId a.signedTransactions.length
        bounds.maxSignedTransactionsPerAttempt)
    else none

/-- A snapshot within the bounds of a store; a store without bounds allows any. -/
def WithinBounds (bounds : Option JournalBounds) (snapshot : SnapshotText) : Prop :=
  ∀ b ∈ bounds, snapshot.attempts.length ≤ b.maxRetainedAttempts ∧
    ∀ a ∈ snapshot.attempts, a.signedTransactions.length ≤ b.maxSignedTransactionsPerAttempt

theorem inspectJournalBounds_nil_iff {snapshot : SnapshotText} {b : JournalBounds} :
    inspectJournalBounds snapshot b = [] ↔ WithinBounds (some b) snapshot := by
  unfold inspectJournalBounds WithinBounds
  simp only [List.append_eq_nil_iff, List.filterMap_eq_nil_iff, Option.mem_def,
    Option.some.injEq, forall_eq', ite_eq_right_iff, reduceCtorEq, imp_false, not_lt]

/-! The store. -/

/-- `read` and `open` construct a store and use it. -/
structure JournalStore where
  identity : IdentityText
  bounds : Option JournalBounds

/-- What `readBoundedJournal` does with the open file, which is regular and has one link,
since it is only ever created under a temporary name and renamed. -/
def readOpened (inode : Inode FileContents) : JournalFiles Text := do
  Files.passive fileFailed
  if MAX_JOURNAL_BYTES < (inode.contents.map Json.utf8Length).getD 0 then
    Files.throw (.error "Journal file exceeds its size limit.")
  else
    Files.passive fileFailed
    match inode.contents with
    | none => Files.throw (.error "Journal file contains invalid UTF-8.")
    | some contents => return contents

def readBoundedJournal : JournalFiles (Option Text) := do
  Files.passive fileFailed
  let d ← Files.get
  match d.target with
  | none => return none
  | some inode =>
    let read ← (readOpened inode).attempt
    let closed ← (Files.passive fileFailed).attempt
    match read, closed with
    | .error e, _ => Files.throw e
    | .ok _, .error e => Files.throw e
    | .ok contents, .ok () => return some contents

/-- Temporary files of other replacements, one after the other. -/
def removeJournalTempFiles : List TempName → JournalFiles Unit
  | [] => return ()
  | name :: names => do
    Files.passive fileFailed
    removeTemp fileFailed name
    removeJournalTempFiles names

def rethrow {α : Type} (failure : Failure) (op : JournalFiles α) : JournalFiles α := do
  match ← op.attempt with
  | .ok a => return a
  | .error _ => Files.throw failure

namespace JournalStore

variable (lib : TransactionLibrary) (store : JournalStore)

def load : JournalFiles (Option SnapshotText) := do
  match ← rethrow (.error "Transaction journal could not be loaded.") readBoundedJournal with
  | none => return none
  | some contents =>
    match decodeJournalSnapshot lib contents store.identity with
    | .error _ => Files.throw (.error "Transaction journal could not be decoded.")
    | .ok snapshot =>
      match store.bounds.map (inspectJournalBounds snapshot) with
      | some (_ :: _) => Files.throw (.error "Journal exceeds its bounds.")
      | _ => return some snapshot

def saveFailed : Failure :=
  .error "Journal persistence did not complete. The on-disk outcome may be uncertain."

def save (name : TempName) (snapshot : SnapshotText) : JournalFiles Unit :=
  match validateJournalText snapshot store.identity with
  | none => Files.throw saveFailed
  | some captured =>
    match encodeJournalSnapshot lib captured store.identity with
    | .error _ => Files.throw saveFailed
    | .ok contents => rethrow saveFailed (durableReplace name contents)

/-- `open`: what is on disk is validated, and written again so that it is durable. The
result is what was loaded, beside the store that the source returns. -/
def openStore (name : TempName) : JournalFiles (Option SnapshotText) := do
  let current ← store.load lib
  let d ← Files.get
  rethrow (.error "Journal temporary-file cleanup failed.") do
    Files.passive fileFailed
    removeJournalTempFiles (d.temps.map (·.1))
  match current with
  | none => return none
  | some snapshot =>
    store.save lib name snapshot
    return some snapshot

end JournalStore

/-! Persistence, with the strings that the process holds. -/

structure HeldPersistence where
  state : JournalPersistenceState
  current : Option SnapshotText
  pending : Option SnapshotText

namespace HeldPersistence

variable (lib : TransactionLibrary) (identity : IdentityText)

def create (initial : Option SnapshotText) : Option HeldPersistence :=
  match initial with
  | none => some ⟨.idle, none, none⟩
  | some snapshot => (verifyJournalText lib snapshot identity).map fun s => ⟨.idle, some s, none⟩

def save (next : SnapshotText) (p : HeldPersistence) : Option HeldPersistence :=
  if p.state = .idle then
    (verifyJournalText lib next identity).map fun s =>
      { p with state := .writing, pending := some s }
  else none

def retry (p : HeldPersistence) : Option HeldPersistence :=
  if p.state = .failed ∧ p.pending ≠ none then some { p with state := .writing } else none

def acknowledged (p : HeldPersistence) : HeldPersistence := ⟨.idle, p.pending, none⟩

def failed (p : HeldPersistence) : HeldPersistence := { p with state := .failed }

end HeldPersistence

/-- The persistence of a coordinator is created from what the open store loads. -/
def loadPersistence (lib : TransactionLibrary) (store : JournalStore) :
    JournalFiles HeldPersistence := do
  let initial ← store.load lib
  match HeldPersistence.create lib store.identity initial with
  | some p => return p
  | none => Files.throw (.typeError "Invalid initial journal state.")

end Quicknet
