import Quicknet.BeaconFetch

/-! What the reader of a response returns depends on the bytes of the body and not on the
chunks that they come in, and it never keeps more of them than its buffer holds. -/
namespace Quicknet.Drand
open Interaction
open Json (Text text)

/-- The reads of a body in chunks, while the signal is not aborted. -/
def quietReads : List Bytes → BodyReads
  | [] => .done none none
  | bytes :: rest => .chunk none none bytes (quietReads rest)

section Loop

variable {buffer : ResponseBuffer} {chunks : List Bytes}

theorem readLoop_chunk (before after : Option FetchFailure) (bytes : Bytes) (rest : BodyReads) :
    readLoop buffer (.chunk before after bytes rest) = (throwIf before).bind fun _ =>
      (throwIf after).bind fun _ =>
        if h : bytes.length ≤ MAX_RESPONSE_BYTES - buffer.bytes.length then
          readLoop (buffer.set bytes h) rest
        else .error exceeds := rfl

/-- Chunk by chunk or all at once, the loop ends with the same bytes, or with the same error. -/
theorem readLoop_quiet (buffer : ResponseBuffer) (chunks : List Bytes) :
    readLoop buffer (quietReads chunks) =
      if h : (buffer.bytes ++ chunks.flatten).length ≤ MAX_RESPONSE_BYTES then
        .ok ⟨buffer.bytes ++ chunks.flatten, h⟩
      else .error exceeds := by
  induction chunks generalizing buffer with
  | nil =>
    have hfits : (buffer.bytes ++ ([] : List Bytes).flatten).length ≤ MAX_RESPONSE_BYTES := by
      simpa using buffer.fits
    rw [dif_pos hfits]
    simp [quietReads, readLoop, throwIf]
    rfl
  | cons bytes rest ih =>
    have hsplit : buffer.bytes ++ (bytes :: rest).flatten =
        (buffer.bytes ++ bytes) ++ rest.flatten := by simp
    unfold quietReads
    rw [readLoop_chunk]
    change (if h : bytes.length ≤ MAX_RESPONSE_BYTES - buffer.bytes.length then _ else _) = _
    split_ifs with hchunk htotal htotal
    · rw [ih, dif_pos (by simpa [ResponseBuffer.set, hsplit] using htotal)]
      simp [ResponseBuffer.set]
    · rw [ih, dif_neg (by simpa [ResponseBuffer.set, hsplit] using htotal)]
    · -- the chunk alone is too long for what is left of the buffer
      exfalso
      simp only [List.flatten_cons, List.length_append] at htotal
      omega
    · rfl

/-- The loop returns only where it has met nothing but chunks and their end. -/
theorem readLoop_ok {reads : BodyReads} {final : ResponseBuffer}
    (h : readLoop buffer reads = .ok final) : ∃ chunks, reads = quietReads chunks := by
  induction reads generalizing buffer with
  | chunk before after bytes rest ih =>
    rw [readLoop_chunk] at h
    cases before with
    | some reason => cases h
    | none =>
      cases after with
      | some reason => cases h
      | none =>
        change (if h : bytes.length ≤ MAX_RESPONSE_BYTES - buffer.bytes.length then _ else _) = _ at h
        split_ifs at h
        obtain ⟨chunks, rfl⟩ := ih h
        exact ⟨bytes :: chunks, rfl⟩
  | done before after =>
    cases before with
    | some reason => cases h
    | none =>
      cases after with
      | some reason => cases h
      | none => exact ⟨[], rfl⟩
  | failed before e => cases before <;> cases h

end Loop

theorem readBody_quiet (chunks : List Bytes) (late : Option FetchFailure) :
    readBody ⟨none, quietReads chunks, late⟩ =
      if chunks.flatten.length ≤ MAX_RESPONSE_BYTES then parseBody chunks.flatten
      else .error exceeds := by
  change (readLoop .empty (quietReads chunks)).bind (fun buffer => parseBody buffer.bytes) = _
  rw [readLoop_quiet]
  by_cases hfits : chunks.flatten.length ≤ MAX_RESPONSE_BYTES
  · rw [dif_pos (by simpa [ResponseBuffer.empty] using hfits), if_pos hfits]
    rfl
  · rw [dif_neg (by simpa [ResponseBuffer.empty] using hfits), if_neg hfits]
    rfl

theorem readBody_ok {trace : BodyTrace} {value : Json.Value} (h : readBody trace = .ok value) :
    trace.start = none ∧ ∃ chunks, trace.reads = quietReads chunks := by
  obtain ⟨start, reads, late⟩ := trace
  cases start with
  | some reason => cases h
  | none =>
    change (readLoop .empty reads).bind (fun buffer => parseBody buffer.bytes) = _ at h
    cases hloop : readLoop .empty reads with
    | error e =>
      rw [hloop] at h
      cases h
    | ok buffer => exact ⟨rfl, readLoop_ok hloop⟩

theorem readBeaconResponse_ok {hasBody : Bool} {trace : BodyTrace} {value : Json.Value} :
    readBeaconResponse hasBody trace = .ok value ↔ hasBody = true ∧ readBody trace = .ok value := by
  unfold readBeaconResponse
  cases hasBody with
  | false =>
    simp only [Bool.not_false, if_true, Bool.false_eq_true, false_and, iff_false]
    cases trace.start <;> exact fun h => (by cases h)
  | true =>
    simp only [Bool.not_true, Bool.false_eq_true, if_false, true_and]
    cases readBody trace with
    | ok v => exact Iff.rfl
    | error e =>
      cases trace.late <;> exact ⟨fun h => (by cases h), fun h => (by cases h)⟩

/-- The value of a response and the bytes that it is read from: it is read to its end, the
signal is never aborted on the way, and all of its bytes fit the buffer. Two bodies of the same
bytes give the same value or the same error, however they are cut into chunks. -/
theorem readBeaconResponse_bytes (hasBody : Bool) (trace : BodyTrace) (value : Json.Value) :
    (readBeaconResponse hasBody trace = .ok value ↔
      hasBody = true ∧ trace.start = none ∧ ∃ chunks, trace.reads = quietReads chunks ∧
        chunks.flatten.length ≤ MAX_RESPONSE_BYTES ∧ parseBody chunks.flatten = .ok value) ∧
      ∀ chunks chunks' late, chunks.flatten = chunks'.flatten →
        readBeaconResponse true ⟨none, quietReads chunks, late⟩ =
          readBeaconResponse true ⟨none, quietReads chunks', late⟩ := by
  constructor
  · rw [readBeaconResponse_ok]
    apply and_congr_right
    intro _
    obtain ⟨start, reads, late⟩ := trace
    constructor
    · intro h
      obtain ⟨rfl, chunks, rfl⟩ := readBody_ok h
      rw [readBody_quiet] at h
      split_ifs at h with hfits
      exact ⟨rfl, chunks, rfl, hfits, h⟩
    · rintro ⟨rfl, chunks, rfl, hfits, h⟩
      rw [readBody_quiet, if_pos hfits, h]
  · intro chunks chunks' late heq
    unfold readBeaconResponse
    rw [readBody_quiet, readBody_quiet, heq]

end Quicknet.Drand
