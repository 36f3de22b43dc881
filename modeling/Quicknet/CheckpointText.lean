import Quicknet.JournalRoundTrip
import Quicknet.CheckpointStore
import Quicknet.Library.JsonLayout

/-! The text of the checkpoint file. The store writes its map as an object over several
lines, and validates whatever it reads before it trusts an entry of it. -/
namespace Quicknet.Daemon

open Json (Text text unit Value)

/-- `getAddress` and the text that it returns for an address. The library is not part of
the repository. -/
structure AddressLibrary where
  getAddress : Text → Option Address
  checksum : Address → Text

/-- The text of an address is read as that address again, and never spells the index of
an array. -/
structure AddressLibrary.Documented (lib : AddressLibrary) : Prop where
  checksummed : ∀ {t a}, lib.getAddress t = some a → lib.getAddress (lib.checksum a) = some a
  prefixed : ∀ {t a}, lib.getAddress t = some a → text "0x" <+: lib.checksum a

/-- What the store keeps of a deployment, as `RegistryDeployment.create` returns it. -/
structure RegistryDeployment (lib : AddressLibrary) where
  chainId : ℕ
  registry : Address
  chainId_positive : 0 < chainId
  chainId_safe : chainId ≤ MAX_SAFE_INTEGER
  registry_normalized : ∃ t, lib.getAddress t = some registry

def CHECKPOINT_FILE_VERSION : ℕ := 1

/-! Writing. -/

section Writing

variable (lib : AddressLibrary)

/-- The keys of a map differ, so the record has one field for each entry. -/
def serializeConsumers (consumers : Checkpoints) : List (Text × Value) :=
  consumers.map fun (consumer, nextBlock) =>
    (lib.checksum consumer, .object [(text "nextBlock", .string (Json.decimal nextBlock))])

def serializeState (deployment : RegistryDeployment lib) (consumers : Checkpoints) : Value :=
  .object [(text "version", .number (.ofNat CHECKPOINT_FILE_VERSION)),
    (text "chainId", .number (.ofNat deployment.chainId)),
    (text "registry", .string (lib.checksum deployment.registry)),
    (text "consumers", .object (serializeConsumers lib consumers))]

/-- `contents` of `writeState`. -/
def stateText (deployment : RegistryDeployment lib) (consumers : Checkpoints) : Text :=
  Json.printIndented 2 (serializeState lib deployment consumers) ++ text "\n"

end Writing

/-! Reading. -/

/-- A key that is set again keeps its place. -/
def setField (key : Text) (v : Value) : List (Text × Value) → List (Text × Value)
  | [] => [(key, v)]
  | (k, w) :: rest => if k = key then (k, v) :: rest else (k, w) :: setField key v rest

def isArrayIndex (key : Text) : Bool :=
  decide (Json.decimal (Json.decimalValue key) = key) &&
    decide (Json.decimalValue key < 2^32 - 1)

/-- `Object.entries`: the indices in ascending order, then the other keys in the order in
which the text introduces them. -/
def objectEntries (fields : List (Text × Value)) : List (Text × Value) :=
  let own := fields.foldl (fun own f => setField f.1 f.2 own) []
  (own.filter fun f => isArrayIndex f.1).mergeSort
      (fun f g => decide (Json.decimalValue f.1 ≤ Json.decimalValue g.1)) ++
    own.filter fun f => !isArrayIndex f.1

def isDecimalInteger (t : Text) : Bool := !t.isEmpty && t.all Json.isDigit

def invalidNextBlock (consumer : Address) : Failure :=
  .error s!"Checkpoint for consumer {consumer} contains an invalid nextBlock."

def parseNextBlock (value : Option Value) (consumer : Address) : Except Failure ℕ :=
  match value.bind decodeString with
  | none => .error (invalidNextBlock consumer)
  | some t =>
    if isDecimalInteger t then .ok (Json.decimalValue t) else .error (invalidNextBlock consumer)

def requireObject (value : Option Value) (message : String) :
    Except Failure (List (Text × Value)) :=
  match value.bind Value.fields with
  | some fields => .ok fields
  | none => .error (.error message)

section Reading

variable (lib : AddressLibrary)

/-- The loop of `parseState` over the entries. -/
def parseConsumers (consumers : Checkpoints) :
    List (Text × Value) → Except Failure Checkpoints
  | [] => .ok consumers
  | (rawConsumer, rawCheckpoint) :: rest =>
    match lib.getAddress rawConsumer with
    | none => .error (.error "Checkpoint file contains an invalid consumer address.")
    | some consumer =>
      if (consumers.lookup consumer).isSome then
        .error (.error s!"Checkpoint file contains duplicate consumer address {consumer}.")
      else do
        let _ ← requireObject (some rawCheckpoint)
          s!"Checkpoint for consumer {consumer} must be an object."
        let nextBlock ← parseNextBlock (rawCheckpoint.field "nextBlock") consumer
        parseConsumers (setCheckpoint consumers consumer nextBlock) rest

def parseState (deployment : RegistryDeployment lib) (value : Value) :
    Except Failure Checkpoints := do
  let _ ← requireObject (some value) "Checkpoint file root must be an object."
  if (value.field "version").bind decodeNumber ≠ some CHECKPOINT_FILE_VERSION then
    .error (.error "Unsupported checkpoint file version.")
  else
    match (value.field "chainId").bind decodeNumber with
    | none => .error (.error "Checkpoint file contains an invalid chainId.")
    | some chainId =>
      -- `isPositiveSafeInteger`
      if chainId = 0 ∨ MAX_SAFE_INTEGER < chainId then
        .error (.error "Checkpoint file contains an invalid chainId.")
      else if chainId ≠ deployment.chainId then
        .error (.error (s!"Checkpoint file chainId {chainId} " ++
          s!"does not match configured chainId {deployment.chainId}."))
      else
        match ((value.field "registry").bind decodeString).bind lib.getAddress with
        | none => .error (.error "Checkpoint file contains an invalid registry address.")
        | some registry =>
          if registry ≠ deployment.registry then
            .error (.error (s!"Checkpoint file registry {registry} " ++
              s!"does not match configured registry {deployment.registry}."))
          else do
            let serializedConsumers ← requireObject (value.field "consumers")
              "Checkpoint file consumers must be an object."
            parseConsumers lib [] (objectEntries serializedConsumers)

/-- `readState` of a file with these contents, or of a missing file. -/
def readState (deployment : RegistryDeployment lib) (contents : Option Text) :
    Except Failure Checkpoints :=
  match contents with
  | none => .ok []
  | some t =>
    match Json.parse t with
    | none => .error (.error "Checkpoint file contains invalid JSON.")
    | some parsed => parseState lib deployment parsed

end Reading

/-! Reading back what was written. -/

/-- A map whose keys are addresses that the library accepted, as every key of the store is. -/
structure Normalized (lib : AddressLibrary) (consumers : Checkpoints) : Prop where
  nodup : (consumers.map Prod.fst).Nodup
  accepted : ∀ consumer ∈ consumers.map Prod.fst, ∃ t, lib.getAddress t = some consumer

section RoundTrip

variable {lib : AddressLibrary}

theorem ok_of_bind {α β : Type} {x : Except Failure α} {f : α → Except Failure β} {b : β}
    (h : (x >>= f) = .ok b) : ∃ a, x = .ok a ∧ f a = .ok b := by
  cases x with
  | error e => cases h
  | ok a => exact ⟨a, rfl, h⟩

theorem mem_keys_setCheckpoint {consumers : Checkpoints} {consumer c : Address} {n : ℕ} :
    c ∈ (setCheckpoint consumers consumer n).map Prod.fst ↔
      c = consumer ∨ c ∈ consumers.map Prod.fst := by
  induction consumers with
  | nil => simp [setCheckpoint]
  | cons entry rest ih =>
    obtain ⟨k, m⟩ := entry
    unfold setCheckpoint
    split
    · rename_i hk
      simp [hk]
    · simp only [List.map_cons, List.mem_cons, ih]
      tauto

theorem nodup_keys_setCheckpoint {consumers : Checkpoints} (consumer : Address) (n : ℕ)
    (h : (consumers.map Prod.fst).Nodup) :
    ((setCheckpoint consumers consumer n).map Prod.fst).Nodup := by
  induction consumers with
  | nil => simp [setCheckpoint]
  | cons entry rest ih =>
    obtain ⟨k, m⟩ := entry
    rw [List.map_cons, List.nodup_cons] at h
    unfold setCheckpoint
    split
    · exact List.nodup_cons.mpr h
    · rename_i hk
      apply List.nodup_cons.mpr
      refine ⟨?_, ih h.2⟩
      rw [mem_keys_setCheckpoint]
      rintro (rfl | hmem)
      · exact hk rfl
      · exact h.1 hmem

theorem normalized_nil : Normalized lib [] := ⟨by simp, by simp⟩

theorem Normalized.set {consumers : Checkpoints} (h : Normalized lib consumers)
    {consumer : Address} (hc : ∃ t, lib.getAddress t = some consumer) (n : ℕ) :
    Normalized lib (setCheckpoint consumers consumer n) := by
  refine ⟨nodup_keys_setCheckpoint consumer n h.nodup, ?_⟩
  intro c hmem
  rcases mem_keys_setCheckpoint.mp hmem with rfl | hmem
  · exact hc
  · exact h.accepted c hmem

/-- The loop of `parseState` builds a map of accepted addresses. -/
theorem parseConsumers_normalized {entries : List (Text × Value)} {consumers m : Checkpoints}
    (h : Normalized lib consumers) (hp : parseConsumers lib consumers entries = .ok m) :
    Normalized lib m := by
  induction entries generalizing consumers with
  | nil =>
    rw [← Except.ok.inj hp]
    exact h
  | cons entry rest ih =>
    obtain ⟨rawConsumer, rawCheckpoint⟩ := entry
    unfold parseConsumers at hp
    split at hp
    · cases hp
    · rename_i consumer hconsumer
      split at hp
      · cases hp
      · obtain ⟨_, _, hp⟩ := ok_of_bind hp
        obtain ⟨n, _, hp⟩ := ok_of_bind hp
        exact ih (h.set ⟨rawConsumer, hconsumer⟩ n) hp

theorem parseState_ok {deployment : RegistryDeployment lib} {value : Value} {m : Checkpoints}
    (h : parseState lib deployment value = .ok m) :
    ∃ entries, parseConsumers lib [] entries = .ok m := by
  unfold parseState at h
  obtain ⟨_, _, h⟩ := ok_of_bind h
  split at h
  · cases h
  · split at h
    · cases h
    · split at h
      · cases h
      · split at h
        · cases h
        · split at h
          · cases h
          · split at h
            · cases h
            · obtain ⟨fields, _, h⟩ := ok_of_bind h
              exact ⟨_, h⟩

theorem readState_normalized {deployment : RegistryDeployment lib} {contents : Option Text}
    {m : Checkpoints} (h : readState lib deployment contents = .ok m) : Normalized lib m := by
  unfold readState at h
  split at h
  · rw [← Except.ok.inj h]
    exact normalized_nil
  · split at h
    · cases h
    · obtain ⟨entries, hentries⟩ := parseState_ok h
      exact parseConsumers_normalized normalized_nil hentries

/-- A key that is new goes to the end of the map. -/
theorem setCheckpoint_of_lookup_none {consumers : Checkpoints} {consumer : Address} (n : ℕ)
    (h : consumer ∉ consumers.map Prod.fst) :
    setCheckpoint consumers consumer n = consumers ++ [(consumer, n)] := by
  induction consumers with
  | nil => rfl
  | cons entry rest ih =>
    obtain ⟨k, m⟩ := entry
    simp only [List.map_cons, List.mem_cons, not_or] at h
    unfold setCheckpoint
    rw [if_neg (Ne.symm h.1), ih h.2, List.cons_append]

theorem setField_of_not_mem {fields : List (Text × Value)} {key : Text} (v : Value)
    (h : key ∉ fields.map Prod.fst) : setField key v fields = fields ++ [(key, v)] := by
  induction fields with
  | nil => rfl
  | cons f rest ih =>
    obtain ⟨k, w⟩ := f
    simp only [List.map_cons, List.mem_cons, not_or] at h
    unfold setField
    rw [if_neg (Ne.symm h.1), ih h.2, List.cons_append]

theorem foldl_setField {fields own : List (Text × Value)}
    (h : ((own ++ fields).map Prod.fst).Nodup) :
    fields.foldl (fun own f => setField f.1 f.2 own) own = own ++ fields := by
  induction fields generalizing own with
  | nil => simp
  | cons f rest ih =>
    have hnew : f.1 ∉ own.map Prod.fst := by
      intro hmem
      rw [List.map_append, List.nodup_append'] at h
      exact h.2.2 hmem (by simp)
    rw [List.foldl_cons, setField_of_not_mem f.2 hnew, ih (by simpa using h)]
    simp

/-- An object without repeated keys or indices lists its fields as they stand. -/
theorem objectEntries_eq {fields : List (Text × Value)} (hnd : (fields.map Prod.fst).Nodup)
    (hindex : ∀ f ∈ fields, isArrayIndex f.1 = false) : objectEntries fields = fields := by
  unfold objectEntries
  have hown : fields.foldl (fun own f => setField f.1 f.2 own) [] = fields :=
    foldl_setField (by simpa using hnd)
  have hnone : fields.filter (fun f => isArrayIndex f.1) = [] := by
    apply List.filter_eq_nil_iff.mpr
    intro f hf
    simp [hindex f hf]
  have hall : fields.filter (fun f => !isArrayIndex f.1) = fields := by
    apply List.filter_eq_self.mpr
    intro f hf
    simp [hindex f hf]
  simp only [hown, hnone, hall, List.mergeSort_nil, List.nil_append]

/-- What starts as an address does is no decimal number. -/
theorem isArrayIndex_prefixed {key : Text} (h : text "0x" <+: key) : isArrayIndex key = false := by
  obtain ⟨rest, rfl⟩ := h
  unfold isArrayIndex
  rw [Bool.and_eq_false_iff]
  left
  rw [decide_eq_false_iff_not]
  intro hdecimal
  have hx : unit 'x' ∈ Json.decimal (Json.decimalValue (text "0x" ++ rest)) := by
    rw [hdecimal]
    exact List.mem_append_left _ (by decide)
  exact absurd (Json.decimal_isDigit hx) (by decide)

theorem parseNextBlock_decimal (n : ℕ) (consumer : Address) :
    parseNextBlock (some (.string (Json.decimal n))) consumer = .ok n := by
  have hdigits : isDecimalInteger (Json.decimal n) = true := by
    unfold isDecimalInteger
    rw [Bool.and_eq_true, List.all_eq_true]
    refine ⟨?_, fun c hc => Json.decimal_isDigit hc⟩
    simpa using Json.decimal_ne_nil n
  unfold parseNextBlock
  simp only [Option.bind_some, decodeString, hdigits, if_true, Json.decimalValue_decimal]

/-- The entries that were written are read back in their order. -/
theorem parseConsumers_serialize (hlib : lib.Documented) {consumers acc : Checkpoints}
    (h : Normalized lib (acc ++ consumers)) :
    parseConsumers lib acc (serializeConsumers lib consumers) = .ok (acc ++ consumers) := by
  induction consumers generalizing acc with
  | nil => simp [serializeConsumers, parseConsumers]
  | cons entry rest ih =>
    obtain ⟨consumer, n⟩ := entry
    obtain ⟨t, ht⟩ := h.accepted consumer (by simp)
    have hnew : consumer ∉ acc.map Prod.fst := by
      intro hmem
      have hnd := h.nodup
      rw [List.map_append, List.nodup_append'] at hnd
      exact hnd.2.2 hmem (by simp)
    have hlookup : acc.lookup consumer = none := by
      rw [List.lookup_eq_none_iff]
      intro p hp
      have hne : p.1 ≠ consumer := by
        rintro rfl
        exact hnew (List.mem_map_of_mem hp)
      simpa using Ne.symm hne
    have hnext : Normalized lib ((acc ++ [(consumer, n)]) ++ rest) := by simpa using h
    have hrest := ih hnext
    rw [List.append_assoc] at hrest
    show parseConsumers lib acc ((lib.checksum consumer,
      .object [(text "nextBlock", .string (Json.decimal n))]) :: serializeConsumers lib rest) = _
    unfold parseConsumers
    rw [hlib.checksummed ht]
    simp only [hlookup, Option.isSome_none, Bool.false_eq_true, if_false]
    show (parseNextBlock (some (.string (Json.decimal n))) consumer >>= fun nextBlock =>
      parseConsumers lib (setCheckpoint acc consumer nextBlock) (serializeConsumers lib rest)) = _
    rw [parseNextBlock_decimal]
    show parseConsumers lib (setCheckpoint acc consumer n) (serializeConsumers lib rest) = _
    rw [setCheckpoint_of_lookup_none n hnew]
    exact hrest

theorem objectEntries_serialize (hlib : lib.Documented) {consumers : Checkpoints}
    (h : Normalized lib consumers) :
    objectEntries (serializeConsumers lib consumers) = serializeConsumers lib consumers := by
  have hkeys : (serializeConsumers lib consumers).map Prod.fst =
      (consumers.map Prod.fst).map lib.checksum := by
    simp [serializeConsumers, Function.comp_def]
  apply objectEntries_eq
  · rw [hkeys]
    apply List.Nodup.map_on _ h.nodup
    intro a ha b hb hab
    obtain ⟨t, ht⟩ := h.accepted a ha
    obtain ⟨u, hu⟩ := h.accepted b hb
    have hread := hlib.checksummed ht
    rw [hab, hlib.checksummed hu] at hread
    exact (Option.some.inj hread).symm
  · intro f hf
    obtain ⟨a, ha, rfl⟩ := List.mem_map.mp hf
    obtain ⟨t, ht⟩ := h.accepted a.1 (List.mem_map_of_mem ha)
    exact isArrayIndex_prefixed (hlib.prefixed ht)

/-- A fresh store reads the map that was written. -/
theorem readState_stateText (hlib : lib.Documented) (deployment : RegistryDeployment lib)
    {consumers : Checkpoints} (h : Normalized lib consumers) :
    readState lib deployment (some (stateText lib deployment consumers)) = .ok consumers := by
  obtain ⟨t, ht⟩ := deployment.registry_normalized
  have hparse : Json.parse (stateText lib deployment consumers) =
      some (serializeState lib deployment consumers) := by
    apply Json.parse_printIndented_append
    intro c hc
    rw [List.mem_singleton.mp hc]
    rfl
  have hversion : ((serializeState lib deployment consumers).field "version").bind decodeNumber =
      some CHECKPOINT_FILE_VERSION := by
    show decodeNumber (.number (.ofNat CHECKPOINT_FILE_VERSION)) = _
    exact decodeNumber_ofNat (by decide)
  have hchain : ((serializeState lib deployment consumers).field "chainId").bind decodeNumber =
      some deployment.chainId := by
    show decodeNumber (.number (.ofNat deployment.chainId)) = _
    exact decodeNumber_ofNat deployment.chainId_safe
  have hregistry : (serializeState lib deployment consumers).field "registry" =
      some (.string (lib.checksum deployment.registry)) := rfl
  have hconsumers : requireObject ((serializeState lib deployment consumers).field "consumers")
      "Checkpoint file consumers must be an object." =
      .ok (serializeConsumers lib consumers) := rfl
  have hentries : parseConsumers lib [] (objectEntries (serializeConsumers lib consumers)) =
      .ok consumers := by
    rw [objectEntries_serialize hlib h]
    exact parseConsumers_serialize hlib h
  have hsafe : ¬ (deployment.chainId = 0 ∨ MAX_SAFE_INTEGER < deployment.chainId) := by
    have hpositive := deployment.chainId_positive
    have hbound := deployment.chainId_safe
    omega
  unfold readState
  simp only [hparse]
  unfold parseState
  show (if _ then _ else _) = _
  rw [hversion, hchain, hregistry, hconsumers]
  simp only [ne_eq, not_true_eq_false, if_false, hsafe, Option.bind_some, decodeString,
    hlib.checksummed ht]
  exact hentries

end RoundTrip

end Quicknet.Daemon
