import Quicknet.BeaconResponse
import Quicknet.Library.Monitor
import Quicknet.Library.Transition

/-! What a fetch with retries requests. In each attempt every endpoint is asked once, in its
order, until one has the beacon; nothing is requested once an abort was seen, and the fetch
gives up only where all the attempts have been made. -/
namespace Quicknet.Drand
open Interaction Transition
open Interaction.Prog (Monitored monitored_ret monitored_throw monitored_read)
open Json (Text text)

/-- `pending` are the requests that are left. Nothing is said once the fetch was ended from
outside, or the signal took its abort back. -/
structure FetchState where
  pending : List Text
  aborted : Bool
  free : Bool
  deriving DecidableEq, Repr

/-- The requests of one attempt. -/
def attemptUrls (round : ℕ) (endpoints : List Text) : List Text :=
  endpoints.map fun endpoint => beaconUrl endpoint round

/-- The requests of the attempts that are left. -/
def remainingUrls (options : FetchWithRetryOptions) (remaining : ℕ) : List Text :=
  (List.replicate remaining (attemptUrls options.round QUICKNET_ENDPOINTS)).flatten

def isAborting : Exchange FetchQuery.Reply FetchFailure → Bool
  | ⟨.signal, .ok (some _)⟩ => true
  | ⟨.sleep _, .ok (.error _)⟩ => true
  | _ => false

def requestOf : Exchange FetchQuery.Reply FetchFailure → Option Text
  | ⟨.request url, _⟩ => some url
  | _ => none

/-- The state after an answered query, where the query is allowed. -/
def afterReply (s : FetchState) : (q : FetchQuery) → q.Reply → Option FetchState
  | .signal, none => some { s with free := s.aborted }
  | .signal, some _ => some { s with aborted := true }
  | .request url, _ =>
    if s.aborted = false ∧ s.pending.head? = some url then
      some { s with pending := s.pending.tail }
    else none
  | .sleep _, .error _ => some { s with aborted := true }
  | .sleep _, .ok _ => if s.aborted then none else some s
  | .combined, _ => some s
  | .body _, _ => some s
  | .cancelBody, _ => some s

/-- The exchanges that a state of the fetch allows. -/
def allowFetch (s : FetchState) (x : Exchange FetchQuery.Reply FetchFailure) : Option FetchState :=
  if s.free then some s
  else
    match x.reply with
    | .error _ => some { s with free := true }
    | .ok r => afterReply s x.query r

/-- How a part of the fetch ends: with the beacon, because of an abort, or with the requests
`rest` still to be made. -/
def Left (round : ℕ) (rest : List Text) (out : Except FetchFailure QuicknetBeacon)
    (t : FetchState) : Prop :=
  t.free = true ∨ (∃ e, out = .error e ∧ (t.aborted = true ∨ t = ⟨rest, false, false⟩)) ∨
    ∃ beacon, out = .ok beacon ∧ beacon.round = round ∧ t.aborted = false

section Parts

variable {round : ℕ} {rest : List Text} {s t : FetchState} {α : Type}

theorem left_aborted (e : FetchFailure) (t : FetchState) (h : t.aborted = true) : Left round rest (.error e) t :=
  Or.inr (Or.inl ⟨e, rfl, Or.inl h⟩)

theorem left_error (e : FetchFailure) : Left round rest (.error e) ⟨rest, false, false⟩ :=
  Or.inr (Or.inl ⟨e, rfl, Or.inr rfl⟩)

theorem allowFetch_free (h : s.free = true) (x : Exchange FetchQuery.Reply FetchFailure) :
    allowFetch s x = some s := if_pos h

/-- A reply from outside ends what is said. -/
theorem allowFetch_error (q : FetchQuery) (e : FetchFailure) :
    ∃ t, allowFetch s ⟨q, .error e⟩ = some t ∧ t.free = true := by
  by_cases h : s.free = true
  · exact ⟨s, allowFetch_free h _, h⟩
  · refine ⟨{ s with free := true }, ?_, rfl⟩
    unfold allowFetch
    rw [if_neg h]

theorem monitored_free (h : s.free = true) (p : Fetch α) :
    p.Monitored allowFetch (fun _ t => t.free = true) s := by
  induction p with
  | ret a => exact monitored_ret h
  | throw e => exact monitored_throw h
  | read q k ih =>
    exact monitored_read (fun e => ⟨s, allowFetch_free h _, h⟩) fun r => ⟨s, allowFetch_free h _, ih r⟩

/-- One query, and what follows on its reply. -/
theorem monitored_query {q : FetchQuery} {k : q.Reply → Fetch α}
    {post : Except FetchFailure α → FetchState → Prop}
    (hfree : ∀ out t, t.free = true → post out t)
    (hk : ∀ r, ∃ t, allowFetch s ⟨q, .ok r⟩ = some t ∧ (k r).Monitored allowFetch post t) :
    (Prog.read q k).Monitored allowFetch post s := by
  refine monitored_read (fun e => ?_) hk
  obtain ⟨t, ht, hend⟩ := allowFetch_error (s := s) q e
  exact ⟨t, ht, hfree _ t hend⟩

/-- The check of the caller's signal, while nothing was aborted. -/
theorem monitored_throwIfAborted {f : Unit → Fetch α}
    {post : Except FetchFailure α → FetchState → Prop} (hs : s.aborted = false)
    (hfree : ∀ out t, t.free = true → post out t)
    (habort : ∀ e t, t.aborted = true → post (.error e) t)
    (hf : (f ()).Monitored allowFetch post s) :
    (throwIfAborted.bind f).Monitored allowFetch post s := by
  obtain ⟨pending, aborted, free⟩ := s
  obtain rfl : aborted = false := hs
  cases free with
  | true => exact (monitored_free rfl _).mono hfree
  | false =>
    refine monitored_query hfree fun reason => ?_
    cases reason with
    | none => exact ⟨_, rfl, hf⟩
    | some e => exact ⟨_, rfl, monitored_throw (habort e _ rfl)⟩

/-- After an abort the signal still has its reason, or nothing is said. -/
theorem monitored_stillAborted {f : Unit → Fetch α}
    {post : Except FetchFailure α → FetchState → Prop} (hs : s.aborted = true)
    (hfree : ∀ out t, t.free = true → post out t)
    (habort : ∀ e t, t.aborted = true → post (.error e) t) :
    (throwIfAborted.bind f).Monitored allowFetch post s := by
  obtain ⟨pending, aborted, free⟩ := s
  obtain rfl : aborted = true := hs
  cases free with
  | true => exact (monitored_free rfl _).mono hfree
  | false =>
    refine monitored_query hfree fun reason => ?_
    cases reason with
    | none => exact ⟨_, rfl, (monitored_free rfl (f ())).mono hfree⟩
    | some e => exact ⟨_, rfl, monitored_throw (habort e _ rfl)⟩

theorem monitored_throwIfCombined {f : Unit → Fetch α} {s : FetchState}
    {post : Except FetchFailure α → FetchState → Prop} (hs : s.free = false)
    (hfree : ∀ out t, t.free = true → post out t) (hthrow : ∀ e, post (.error e) s)
    (hf : (f ()).Monitored allowFetch post s) :
    (throwIfCombined.bind f).Monitored allowFetch post s := by
  refine monitored_query hfree fun reason => ⟨s, ?_, ?_⟩
  · unfold allowFetch
    rw [hs]
    rfl
  · cases reason with
    | none => exact hf
    | some e => exact monitored_throw (hthrow e)

theorem left_of_free (out : Except FetchFailure QuicknetBeacon) (t : FetchState)
    (h : t.free = true) : Left round rest out t := Or.inl h

/-- A part of the fetch that is tried, and what follows on how it ended. -/
theorem monitored_try {β : Type} {p : Fetch α} {f : Except FetchFailure α → Fetch β}
    {post : Except FetchFailure α → FetchState → Prop}
    {post' : Except FetchFailure β → FetchState → Prop} (hp : p.Monitored allowFetch post s)
    (hfree : ∀ out t, t.free = true → post' out t)
    (hf : ∀ out t, post out t → (f out).Monitored allowFetch post' t) :
    ((p.attempt : Fetch (Except FetchFailure α)).bind f).Monitored allowFetch post' s := by
  have htried : (p.attempt : Fetch (Except FetchFailure α)).Monitored allowFetch
      (fun out t => t.free = true ∨ ∃ result, out = .ok result ∧ post result t) s := by
    refine hp.attempt (fun out t h => Or.inr ⟨out, rfl, h⟩) fun u q e t ht => Or.inl ?_
    obtain ⟨v, hv, hend⟩ := allowFetch_error (s := u) q e
    rw [← Option.some.inj (hv.symm.trans ht)]
    exact hend
  refine htried.bind ?_ ?_
  · rintro out t (hend | ⟨result, hout, hpost⟩)
    · exact (monitored_free hend (f out)).mono hfree
    · rw [Except.ok.inj hout]
      exact hf result t hpost
  · rintro e t (hend | ⟨result, hout, _⟩)
    · exact hfree _ t hend
    · cases hout

theorem parseBeacon_round {value : Json.Value} {beacon : QuicknetBeacon}
    (h : parseBeacon round value = .ok beacon) : beacon.round = round := by
  cases value with
  | object fields =>
    unfold parseBeacon at h
    dsimp only at h
    split at h
    · cases h
    · split_ifs at h
      cases hsignature : parseSignature (Json.lookup (text "signature") fields) with
      | error e =>
        rw [hsignature] at h
        cases h
      | ok signature =>
        rw [hsignature] at h
        rw [← Except.ok.inj h]
  | _ => cases h

end Parts

section Endpoints

variable {round timeoutMs : ℕ} {rest : List Text}

/-- Reading the response requests nothing. -/
theorem monitored_readBeacon (url : Text) (head : ResponseHead) :
    (readBeacon url round head).Monitored allowFetch
      (fun out t => t.free = true ∨ (t = ⟨rest, false, false⟩ ∧
        ∀ beacon, out = .ok beacon → beacon.round = round)) ⟨rest, false, false⟩ := by
  have herror (e : FetchFailure) : (⟨rest, false, false⟩ : FetchState).free = true ∨
      ((⟨rest, false, false⟩ : FetchState) = ⟨rest, false, false⟩ ∧
        ∀ beacon, (Except.error e : Except FetchFailure QuicknetBeacon) = .ok beacon →
          beacon.round = round) := Or.inr ⟨rfl, fun _ h => (by cases h)⟩
  refine monitored_throwIfCombined rfl (fun _ _ h => Or.inl h) herror ?_
  split_ifs
  · exact monitored_throw (herror _)
  · refine monitored_query (fun _ _ h => Or.inl h) fun trace => ⟨_, rfl, ?_⟩
    change Monitored _ _ ((Prog.lift (readBeaconResponse head.hasBody trace)).bind _) _
    cases readBeaconResponse head.hasBody trace with
    | error e => exact monitored_throw (herror e)
    | ok value =>
      refine monitored_throwIfCombined rfl (fun _ _ h => Or.inl h) herror ?_
      cases hbeacon : parseBeacon round value with
      | error e => exact monitored_throw (herror e)
      | ok beacon =>
        refine monitored_ret (Or.inr ⟨rfl, fun beacon' hout => ?_⟩)
        rw [← Except.ok.inj hout]
        exact parseBeacon_round hbeacon

/-- The handler of an endpoint requests nothing, and throws. -/
theorem monitored_releaseAndThrow (hasBody : Bool) (e : FetchFailure) :
    (releaseAndThrow hasBody e).Monitored allowFetch (Left round rest) ⟨rest, false, false⟩ := by
  have hchecks : (throwIfAborted.bind fun _ => throwIfCombined.bind fun _ =>
      (.throw e : Fetch QuicknetBeacon)).Monitored allowFetch (Left round rest)
        ⟨rest, false, false⟩ := by
    refine monitored_throwIfAborted rfl left_of_free left_aborted ?_
    exact monitored_throwIfCombined rfl left_of_free left_error (monitored_throw (left_error e))
  cases hasBody with
  | false => exact hchecks
  | true => exact monitored_query left_of_free fun _ => ⟨_, rfl, hchecks⟩

/-- An endpoint is asked once. -/
theorem monitored_fetchBeaconFromEndpoint (endpoint : Text) (hround : round ≠ 0)
    (htimeout : validateTimeout timeoutMs = .ok ()) :
    (fetchBeaconFromEndpoint endpoint round timeoutMs).Monitored allowFetch (Left round rest)
      ⟨beaconUrl endpoint round :: rest, false, false⟩ := by
  unfold fetchBeaconFromEndpoint
  refine monitored_throwIfAborted rfl left_of_free left_aborted ?_
  rw [htimeout, if_neg hround]
  have hallow (response : Except FetchFailure ResponseHead) :
      allowFetch ⟨beaconUrl endpoint round :: rest, false, false⟩
        ⟨.request (beaconUrl endpoint round), .ok response⟩ = some ⟨rest, false, false⟩ := by
    simp [allowFetch, afterReply]
  refine monitored_query left_of_free fun response => ⟨_, hallow response, ?_⟩
  cases response with
  | error e => exact monitored_releaseAndThrow false e
  | ok head =>
    refine monitored_try (monitored_readBeacon _ head) left_of_free ?_
    rintro out t (hend | ⟨rfl, hbeacon⟩)
    · exact (monitored_free hend _).mono left_of_free
    · cases out with
      | ok beacon => exact monitored_ret (Or.inr (Or.inr ⟨beacon, rfl, hbeacon beacon rfl, rfl⟩))
      | error e => exact monitored_releaseAndThrow head.hasBody e

/-- The endpoints are asked in their order, until one of them has the beacon. -/
theorem monitored_fetchFrom (errors : List FetchFailure) (endpoints : List Text)
    (hround : round ≠ 0) (htimeout : validateTimeout timeoutMs = .ok ()) :
    (fetchFrom round timeoutMs errors endpoints).Monitored allowFetch (Left round rest)
      ⟨attemptUrls round endpoints ++ rest, false, false⟩ := by
  induction endpoints generalizing errors with
  | nil => exact monitored_throw (left_error _)
  | cons endpoint endpoints ih =>
    refine monitored_try (monitored_fetchBeaconFromEndpoint endpoint hround htimeout)
      left_of_free ?_
    rintro out t (hend | ⟨e, rfl, habort | rfl⟩ | ⟨beacon, rfl, hbeacon, habort⟩)
    · exact (monitored_free hend _).mono left_of_free
    · exact monitored_stillAborted habort left_of_free left_aborted
    · exact monitored_throwIfAborted rfl left_of_free left_aborted (ih _)
    · exact monitored_ret (Or.inr (Or.inr ⟨beacon, rfl, hbeacon, habort⟩))

end Endpoints

section Attempts

variable {options : FetchWithRetryOptions} {rest : List Text}

theorem remainingUrls_succ (remaining : ℕ) : remainingUrls options (remaining + 1) =
    attemptUrls options.round QUICKNET_ENDPOINTS ++ remainingUrls options remaining := by
  unfold remainingUrls
  rw [List.replicate_succ, List.flatten_cons]

/-- An attempt asks every endpoint, until one of them has the beacon. -/
theorem monitored_fetchOnce (hround : options.round ≠ 0)
    (htimeout : validateTimeout (options.timeoutMs.getD DEFAULT_TIMEOUT_MS) = .ok ()) :
    (fetchOnce options).Monitored allowFetch (Left options.round rest)
      ⟨attemptUrls options.round QUICKNET_ENDPOINTS ++ rest, false, false⟩ := by
  have hfetch : (fetchBeacon options.round QUICKNET_ENDPOINTS
      (options.timeoutMs.getD DEFAULT_TIMEOUT_MS)).Monitored allowFetch (Left options.round rest)
        ⟨attemptUrls options.round QUICKNET_ENDPOINTS ++ rest, false, false⟩ := by
    unfold fetchBeacon
    refine monitored_throwIfAborted rfl left_of_free left_aborted ?_
    rw [htimeout]
    exact monitored_fetchFrom [] QUICKNET_ENDPOINTS hround htimeout
  refine hfetch.bind ?_ ?_
  · rintro beacon t (hend | ⟨e, hout, _⟩ | ⟨beacon', hout, hbeacon, habort⟩)
    · exact (monitored_free hend _).mono left_of_free
    · cases hout
    · obtain rfl := Except.ok.inj hout
      refine monitored_throwIfAborted habort left_of_free left_aborted ?_
      rw [if_neg (not_not_intro hbeacon)]
      exact monitored_ret (Or.inr (Or.inr ⟨beacon, rfl, hbeacon, habort⟩))
  · rintro e t (hend | ⟨e', hout, hleft⟩ | ⟨beacon, hout, _⟩)
    · exact left_of_free _ _ hend
    · exact Or.inr (Or.inl ⟨e, rfl, hleft⟩)
    · cases hout

theorem monitored_fetchAttempts (remaining : ℕ) (lastError : Option FetchFailure)
    (hround : options.round ≠ 0)
    (htimeout : validateTimeout (options.timeoutMs.getD DEFAULT_TIMEOUT_MS) = .ok ()) :
    (fetchAttempts options lastError remaining).Monitored allowFetch (Left options.round [])
      ⟨remainingUrls options remaining, false, false⟩ := by
  induction remaining generalizing lastError with
  | zero =>
    unfold fetchAttempts
    exact monitored_throw (left_error _)
  | succ remaining ih =>
    rw [remainingUrls_succ]
    unfold fetchAttempts
    refine monitored_throwIfAborted rfl left_of_free left_aborted ?_
    refine monitored_try (monitored_fetchOnce hround htimeout) left_of_free ?_
    rintro out t (hend | ⟨e, rfl, habort | rfl⟩ | ⟨beacon, rfl, hbeacon, habort⟩)
    · exact (monitored_free hend _).mono left_of_free
    · exact monitored_stillAborted habort left_of_free left_aborted
    · refine monitored_throwIfAborted rfl left_of_free left_aborted ?_
      split_ifs with hlast
      · subst hlast
        unfold fetchAttempts
        exact monitored_throw (left_error _)
      · refine monitored_query left_of_free fun slept => ?_
        cases slept with
        | error e => exact ⟨_, rfl, monitored_throw (left_aborted e _ rfl)⟩
        | ok _ => exact ⟨_, rfl, ih (some e)⟩
    · exact monitored_ret (Or.inr (Or.inr ⟨beacon, rfl, hbeacon, habort⟩))

theorem validateAttempts_timeout (h : validateAttempts options = .ok ()) :
    validateTimeout (options.timeoutMs.getD DEFAULT_TIMEOUT_MS) = .ok () := by
  unfold validateAttempts at h
  split_ifs at h
  cases htimeout : options.timeoutMs with
  | none => rfl
  | some timeoutMs =>
    rw [htimeout] at h
    exact h

end Attempts

/-! Where a beacon comes from. -/

/-- The log has the response of an endpoint that the beacon was read from. -/
def Delivered (round : ℕ) (beacon : QuicknetBeacon) (log : FetchLog) : Prop :=
  ∃ url head trace value, ⟨.request url, .ok (.ok head : Except FetchFailure ResponseHead)⟩ ∈ log ∧
    ⟨.body url, .ok trace⟩ ∈ log ∧ readBeaconResponse head.hasBody trace = .ok value ∧
      parseBeacon round value = .ok beacon

section Delivered

variable {round timeoutMs : ℕ} {beacon : QuicknetBeacon} {log before : FetchLog}

theorem Delivered.mono (h : Delivered round beacon log) {log' : FetchLog} (hsub : log ⊆ log') :
    Delivered round beacon log' := by
  obtain ⟨url, head, trace, value, hrequest, hbody, hread, hparse⟩ := h
  exact ⟨url, head, trace, value, hsub hrequest, hsub hbody, hread, hparse⟩

theorem Delivered.of_suffix (h : Delivered round beacon log) :
    Delivered round beacon (before ++ log) := h.mono (List.subset_append_right before log)

/-- What is returned after a part was tried is what the part returned, or what the rest did. -/
theorem delivered_try {p : Fetch QuicknetBeacon}
    {f : Except FetchFailure QuicknetBeacon → Fetch QuicknetBeacon}
    (hp : ∀ log, p.replay log = some (.ok beacon) → Delivered round beacon log)
    (hret : ∀ beacon, f (.ok beacon) = .ret beacon)
    (hf : ∀ e log, (f (.error e)).replay log = some (.ok beacon) → Delivered round beacon log)
    (h : ((p.attempt : Fetch (Except FetchFailure QuicknetBeacon)).bind f).replay log =
      some (.ok beacon)) : Delivered round beacon log := by
  obtain ⟨out, l₁, l₂, rfl, htried, hrest⟩ := Prog.replay_bind_ok_iff.mp h
  cases out with
  | error e => exact (hf e l₂ hrest).of_suffix
  | ok beacon' =>
    rw [hret] at hrest
    obtain ⟨rfl, hout⟩ := Prog.replay_ret_iff.mp hrest
    obtain rfl := Except.ok.inj hout
    rw [List.append_nil]
    exact hp l₁ (Prog.replay_attempt htried)

/-- A computation that checks a signal first, and what it returns. -/
theorem replay_throwIfAborted {α : Type} {f : Unit → Fetch α} {a : α}
    (h : (throwIfAborted.bind f).replay log = some (.ok a)) :
    ∃ l₁ l₂, log = l₁ ++ l₂ ∧ (f ()).replay l₂ = some (.ok a) := by
  obtain ⟨_, l₁, l₂, hlog, _, hrest⟩ := Prog.replay_bind_ok_iff.mp h
  exact ⟨l₁, l₂, hlog, hrest⟩

theorem readBeacon_delivers {url : Text} {head : ResponseHead}
    (h : (readBeacon url round head).replay log = some (.ok beacon)) :
    ∃ trace value, ⟨.body url, .ok trace⟩ ∈ log ∧
      readBeaconResponse head.hasBody trace = .ok value ∧ parseBeacon round value = .ok beacon := by
  obtain ⟨_, l₁, l₂, rfl, _, hchecked⟩ := Prog.replay_bind_ok_iff.mp h
  split_ifs at hchecked
  · cases (Prog.replay_throw_iff.mp hchecked).2
  · obtain ⟨trace, l₃, l₄, rfl, hbody, hafter⟩ := Prog.replay_bind_ok_iff.mp hchecked
    obtain rfl := Prog.replay_ask_ok_iff.mp hbody
    obtain ⟨value, l₅, l₆, rfl, hvalue, hlast⟩ := Prog.replay_bind_ok_iff.mp hafter
    obtain ⟨_, hread⟩ := Prog.replay_lift_ok_iff.mp hvalue
    obtain ⟨_, l₇, l₈, rfl, _, hbeacon⟩ := Prog.replay_bind_ok_iff.mp hlast
    obtain ⟨_, hparse⟩ := Prog.replay_lift_ok_iff.mp hbeacon
    exact ⟨trace, value, by simp, hread, hparse⟩

theorem releaseAndThrow_error {hasBody : Bool} {e : FetchFailure} :
    (releaseAndThrow hasBody e).replay log ≠ some (.ok beacon) := by
  intro h
  have hchecks : ∀ log, (throwIfAborted.bind fun _ => throwIfCombined.bind fun _ =>
      (.throw e : Fetch QuicknetBeacon)).replay log ≠ some (.ok beacon) := by
    intro log h
    obtain ⟨_, l₁, l₂, _, _, hrest⟩ := Prog.replay_bind_ok_iff.mp h
    obtain ⟨_, l₃, l₄, _, _, hlast⟩ := Prog.replay_bind_ok_iff.mp hrest
    cases (Prog.replay_throw_iff.mp hlast).2
  cases hasBody with
  | false => exact hchecks log h
  | true =>
    obtain ⟨_, l₁, l₂, _, _, hrest⟩ := Prog.replay_bind_ok_iff.mp h
    exact hchecks l₂ hrest

theorem fetchBeaconFromEndpoint_delivers {endpoint : Text}
    (h : (fetchBeaconFromEndpoint endpoint round timeoutMs).replay log = some (.ok beacon)) :
    Delivered round beacon log := by
  obtain ⟨l₁, l₂, rfl, hstart⟩ := replay_throwIfAborted h
  obtain ⟨_, l₃, l₄, rfl, _, hvalid⟩ := Prog.replay_bind_ok_iff.mp hstart
  split_ifs at hvalid
  · cases (Prog.replay_throw_iff.mp hvalid).2
  · obtain ⟨response, l₅, l₆, rfl, hrequest, hafter⟩ := Prog.replay_bind_ok_iff.mp hvalid
    obtain rfl := Prog.replay_ask_ok_iff.mp hrequest
    cases response with
    | error e => exact absurd hafter releaseAndThrow_error
    | ok head =>
      obtain ⟨out, l₇, l₈, rfl, htried, hlast⟩ := Prog.replay_bind_ok_iff.mp hafter
      cases out with
      | error e => exact absurd hlast releaseAndThrow_error
      | ok beacon' =>
        obtain ⟨rfl, hout⟩ := Prog.replay_ret_iff.mp hlast
        obtain rfl := Except.ok.inj hout
        obtain ⟨trace, value, hbody, hread, hparse⟩ := readBeacon_delivers (Prog.replay_attempt htried)
        exact ⟨beaconUrl endpoint round, head, trace, value, by simp, by simp [hbody], hread, hparse⟩

theorem fetchFrom_delivers {errors : List FetchFailure} {endpoints : List Text}
    (h : (fetchFrom round timeoutMs errors endpoints).replay log = some (.ok beacon)) :
    Delivered round beacon log := by
  induction endpoints generalizing errors log with
  | nil => cases (Prog.replay_throw_iff.mp h).2
  | cons endpoint endpoints ih =>
    refine delivered_try (fun _ => fetchBeaconFromEndpoint_delivers) (fun _ => rfl) ?_ h
    intro e log hrest
    obtain ⟨l₁, l₂, rfl, hnext⟩ := replay_throwIfAborted hrest
    exact (ih hnext).of_suffix

theorem fetchOnce_delivers {options : FetchWithRetryOptions}
    (h : (fetchOnce options).replay log = some (.ok beacon)) :
    Delivered options.round beacon log := by
  obtain ⟨fetched, l₁, l₂, rfl, hfetch, hafter⟩ := Prog.replay_bind_ok_iff.mp h
  obtain ⟨l₃, l₄, rfl, hlast⟩ := replay_throwIfAborted hafter
  split_ifs at hlast
  · cases (Prog.replay_throw_iff.mp hlast).2
  · obtain ⟨_, hout⟩ := Prog.replay_ret_iff.mp hlast
    obtain rfl := Except.ok.inj hout
    obtain ⟨l₅, l₆, rfl, hstart⟩ := replay_throwIfAborted hfetch
    obtain ⟨_, l₇, l₈, rfl, _, hvalid⟩ := Prog.replay_bind_ok_iff.mp hstart
    have hfound : Delivered options.round beacon l₈ := fetchFrom_delivers hvalid
    exact hfound.of_suffix.of_suffix.mono (List.subset_append_left _ _)

theorem fetchAttempts_delivers {options : FetchWithRetryOptions} {remaining : ℕ}
    {lastError : Option FetchFailure}
    (h : (fetchAttempts options lastError remaining).replay log = some (.ok beacon)) :
    Delivered options.round beacon log := by
  induction remaining generalizing lastError log with
  | zero =>
    unfold fetchAttempts at h
    cases (Prog.replay_throw_iff.mp h).2
  | succ remaining ih =>
    unfold fetchAttempts at h
    obtain ⟨l₁, l₂, rfl, htried⟩ := replay_throwIfAborted h
    apply Delivered.of_suffix
    refine delivered_try (fun _ => fetchOnce_delivers) (fun _ => rfl) ?_ htried
    intro e log hrest
    obtain ⟨l₃, l₄, rfl, hnext⟩ := replay_throwIfAborted hrest
    apply Delivered.of_suffix
    split_ifs at hnext
    · unfold fetchAttempts at hnext
      cases (Prog.replay_throw_iff.mp hnext).2
    · obtain ⟨_, l₅, l₆, rfl, _, hmore⟩ := Prog.replay_bind_ok_iff.mp hnext
      exact (ih hmore).of_suffix

end Delivered

/-! What the protocol says of a log. -/

/-- The requests of a log, in their order. -/
def requests (log : FetchLog) : List Text := log.filterMap requestOf

/-- No reply came from outside. -/
def Answered (log : FetchLog) : Prop := ∀ x ∈ log, x.reply.isOk = true

/-- Once the signal is aborted it stays aborted. -/
def Lasting (log : FetchLog) : Prop :=
  ∀ before x after, log = before ++ x :: after → isAborting x = true →
    (⟨.signal, .ok none⟩ : Exchange FetchQuery.Reply FetchFailure) ∉ after

/-- The state of a fetch, read off the log. -/
structure FetchInv (all : List Text) (log : FetchLog) (s : FetchState) : Prop where
  made : requests log ++ s.pending = all
  aborted : s.aborted = log.any isAborting
  quiet : ∀ before x after, log = before ++ x :: after → isAborting x = true → requests after = []

section Log

variable {all : List Text} {log before after : FetchLog} {s t : FetchState}
  {x y : Exchange FetchQuery.Reply FetchFailure}

theorem requests_append : requests (log ++ after) = requests log ++ requests after :=
  List.filterMap_append

theorem Answered.of_append (h : Answered (log ++ after)) : Answered log :=
  fun x hx => h x (List.mem_append_left after hx)

theorem Lasting.of_append (h : Lasting (log ++ after)) : Lasting log := by
  intro before x rest hlog hx hin
  refine h before x (rest ++ after) ?_ hx (List.mem_append_left after hin)
  rw [hlog, List.append_assoc, List.cons_append]

/-- An exchange that is not a request. -/
theorem FetchInv.append (h : FetchInv all log s) (hrequest : requestOf x = none)
    (haborted : t.aborted = (s.aborted || isAborting x)) (hpending : t.pending = s.pending) :
    FetchInv all (log ++ [x]) t where
  made := by
    rw [← h.made, hpending, requests_append]
    simp [requests, hrequest]
  aborted := by
    rw [haborted, h.aborted]
    simp
  quiet before y after hlog hy := by
    rcases append_singleton_split hlog with ⟨_, _, rfl⟩ | ⟨rest, rfl, hbefore⟩
    · rfl
    · rw [requests_append, h.quiet before y rest hbefore hy]
      simp [requests, hrequest]

theorem FetchInv.request {url : Text} {rest : List Text} {reply : Except FetchFailure ResponseHead}
    (h : FetchInv all log ⟨url :: rest, false, false⟩) :
    FetchInv all (log ++ [⟨.request url, .ok reply⟩]) ⟨rest, false, false⟩ where
  made := by
    rw [← h.made, requests_append, List.append_assoc]
    rfl
  aborted := by
    rw [List.any_append, ← h.aborted]
    rfl
  quiet before y after hlog hy := by
    rcases append_singleton_split hlog with ⟨_, _, rfl⟩ | ⟨more, rfl, hbefore⟩
    · rfl
    · -- nothing was aborted before a request
      have hany : log.any isAborting = true :=
        List.any_eq_true.mpr ⟨y, by simp [hbefore], hy⟩
      rw [← h.aborted] at hany
      cases hany

/-- An exchange keeps what the state says of the log, unless a reply came from outside or the
signal took its abort back. -/
theorem FetchInv.step (h : FetchInv all log s) (hfree : s.free = false)
    (hx : allowFetch s x = some t) :
    (t.free = false ∧ FetchInv all (log ++ [x]) t) ∨
      ¬ (Answered (log ++ [x]) ∧ Lasting (log ++ [x])) := by
  obtain ⟨pending, aborted, free⟩ := s
  obtain rfl : free = false := hfree
  obtain ⟨q, reply⟩ := x
  cases reply with
  | error e =>
    right
    rintro ⟨hanswered, _⟩
    cases hanswered ⟨q, .error e⟩ (by simp)
  | ok r =>
    change afterReply _ q r = some t at hx
    cases q with
    | signal =>
      cases r with
      | some e =>
        obtain rfl := Option.some.inj hx
        exact Or.inl ⟨rfl, h.append rfl (by simp [isAborting]) rfl⟩
      | none =>
        obtain rfl := Option.some.inj hx
        -- a signal that was aborted and reads as not aborted is what `Lasting` excludes
        cases aborted with
        | false => exact Or.inl ⟨rfl, h.append rfl rfl rfl⟩
        | true =>
          right
          rintro ⟨_, hlasting⟩
          obtain ⟨y, hy, habort⟩ := List.any_eq_true.mp h.aborted.symm
          obtain ⟨before, after, rfl⟩ := List.append_of_mem hy
          refine hlasting before y (after ++ [⟨.signal, .ok none⟩]) (by simp) habort ?_
          simp
    -- a request is allowed only for the first URL that is left
    | request url =>
      dsimp only [afterReply] at hx
      split_ifs at hx with hallowed
      obtain ⟨rfl, hhead⟩ := hallowed
      obtain rfl := Option.some.inj hx
      obtain ⟨rest, rfl⟩ := List.head?_eq_some_iff.mp hhead
      exact Or.inl ⟨rfl, h.request⟩
    | sleep milliseconds =>
      cases r with
      | error e =>
        obtain rfl := Option.some.inj hx
        exact Or.inl ⟨rfl, h.append rfl (by simp [isAborting]) rfl⟩
      | ok _ =>
        dsimp only [afterReply] at hx
        split_ifs at hx
        obtain rfl := Option.some.inj hx
        exact Or.inl ⟨rfl, h.append rfl (by simp [isAborting]) rfl⟩
    | combined =>
      obtain rfl := Option.some.inj hx
      exact Or.inl ⟨rfl, h.append rfl (by simp [isAborting]) rfl⟩
    | body url =>
      obtain rfl := Option.some.inj hx
      exact Or.inl ⟨rfl, h.append rfl (by simp [isAborting]) rfl⟩
    | cancelBody =>
      obtain rfl := Option.some.inj hx
      exact Or.inl ⟨rfl, h.append rfl (by simp [isAborting]) rfl⟩

theorem fetchInv_follow (hanswered : Answered log) (hlasting : Lasting log)
    (h : follow allowFetch ⟨all, false, false⟩ log = some t) :
    t.free = false ∧ FetchInv all log t := by
  let P (log : FetchLog) (s : FetchState) : Prop :=
    (s.free = false ∧ FetchInv all log s) ∨ ¬ (Answered log ∧ Lasting log)
  have hstep : ∀ log s x t, P log s → allowFetch s x = some t → P (log ++ [x]) t := by
    rintro log s x t (⟨hfree, hinv⟩ | hnot) hx
    · exact hinv.step hfree hx
    · exact Or.inr fun hboth => hnot ⟨hboth.1.of_append, hboth.2.of_append⟩
  have hstart : P [] ⟨all, false, false⟩ :=
    Or.inl ⟨rfl, rfl, rfl, fun before x after hlog => (by simp at hlog)⟩
  exact (follow_invariant P hstep hstart h).resolve_right (not_not_intro ⟨hanswered, hlasting⟩)

end Log

/-- In every run whose signal keeps its abort: the requests are the endpoints in their order,
as often as there are attempts, as far as the run comes; none is made after an abort was seen;
the beacon that is returned is of the round and was read from the response of an endpoint; and
where the fetch gives up without an abort, every endpoint was asked in every attempt. -/
theorem fetch_protocol (options : FetchWithRetryOptions) {log : FetchLog}
    {out : Except FetchFailure QuicknetBeacon}
    (hrun : (fetchQuicknetBeaconWithRetry options).replay log = some out)
    (hanswered : Answered log) (hlasting : Lasting log) :
    requests log <+: remainingUrls options options.maxAttempts ∧
      (∀ before x after, log = before ++ x :: after → isAborting x = true →
        requests after = []) ∧
      (∀ beacon, out = .ok beacon → beacon.round = options.round ∧
        log.any isAborting = false ∧ Delivered options.round beacon log) ∧
      ∀ e, out = .error e → options.round ≠ 0 → validateAttempts options = .ok () →
        log.any isAborting = false → requests log = remainingUrls options options.maxAttempts := by
  -- a fetch that ends before it reads anything
  have hnothing (hlog : log = []) : requests log <+: remainingUrls options options.maxAttempts ∧
      ∀ before x after, log = before ++ x :: after → isAborting x = true → requests after = [] := by
    subst hlog
    constructor
    · exact List.nil_prefix
    · exact fun before x after hlog => (by simp at hlog)
  unfold fetchQuicknetBeaconWithRetry at hrun
  split_ifs at hrun with hround
  · obtain ⟨hlog, rfl⟩ := Prog.replay_throw_iff.mp hrun
    refine ⟨(hnothing hlog).1, (hnothing hlog).2, fun _ h => (by cases h), ?_⟩
    exact fun _ _ hpositive => absurd hround hpositive
  · cases hvalid : validateAttempts options with
    | error e =>
      rw [hvalid] at hrun
      obtain ⟨hlog, rfl⟩ := Prog.replay_throw_iff.mp hrun
      exact ⟨(hnothing hlog).1, (hnothing hlog).2, fun _ h => (by cases h), fun _ _ _ h => (by cases h)⟩
    | ok _ =>
      rw [hvalid] at hrun
      change (fetchAttempts options none options.maxAttempts).replay log = some out at hrun
      have htimeout := validateAttempts_timeout hvalid
      -- the monitor follows the whole log, so that its invariant holds at the end
      obtain ⟨t, ht, hleft⟩ :=
        monitored_fetchAttempts options.maxAttempts none hround htimeout log out hrun
      obtain ⟨hfree, hinv⟩ := fetchInv_follow hanswered hlasting ht
      have hleft := hleft.resolve_left (by rw [hfree]; exact Bool.false_ne_true)
      refine ⟨⟨t.pending, hinv.made⟩, hinv.quiet, ?_, ?_⟩
      · rintro beacon rfl
        obtain ⟨e, hout, _⟩ | ⟨beacon', hout, hbeacon, habort⟩ := hleft
        · cases hout
        · obtain rfl := Except.ok.inj hout
          exact ⟨hbeacon, hinv.aborted.symm.trans habort, fetchAttempts_delivers hrun⟩
      · rintro e rfl _ _ hquiet
        obtain ⟨e', _, habort | rfl⟩ | ⟨beacon, hout, _⟩ := hleft
        · rw [hinv.aborted, hquiet] at habort
          cases habort
        · rw [← hinv.made, List.append_nil]
        · cases hout

/-! A fetch whose first endpoint cannot be reached. -/

def sampleFetch : FetchWithRetryOptions := ⟨1, 2, 250, none⟩

def sampleSignature : Text := List.replicate 96 (Json.unit 'a')

def sampleBody : Bytes :=
  (text "\x7b\"round\":1,\"signature\":\"" ++ sampleSignature ++ text "\"\x7d").map UInt16.toUInt8

def notAborted : Exchange FetchQuery.Reply FetchFailure := ⟨.signal, .ok none⟩
def inTime : Exchange FetchQuery.Reply FetchFailure := ⟨.combined, .ok none⟩

def sampleLog : FetchLog :=
  [notAborted, notAborted, notAborted,
    ⟨.request (beaconUrl (text "https://api.drand.sh/v2") 1), .ok (.error (.foreign 0))⟩,
    notAborted, inTime, notAborted, notAborted,
    ⟨.request (beaconUrl (text "https://api2.drand.sh/v2") 1), .ok (.ok ⟨true, 200, true⟩)⟩, inTime,
    ⟨.body (beaconUrl (text "https://api2.drand.sh/v2") 1),
      .ok ⟨none, quietReads [sampleBody.take 20, sampleBody.drop 20], none⟩⟩,
    inTime, notAborted]

def sampleBeacon : QuicknetBeacon := ⟨1, '0' :: 'x' :: List.replicate 96 'a'⟩

theorem sampleLog_run :
    (fetchQuicknetBeaconWithRetry sampleFetch).replay sampleLog = some (.ok sampleBeacon) := by
  have hbeacon : ((fetchQuicknetBeaconWithRetry sampleFetch).replay sampleLog).bind
      Except.toOption = some sampleBeacon := by decide +kernel
  obtain ⟨out, hout, hok⟩ := Option.bind_eq_some_iff.mp hbeacon
  cases out with
  | error e => cases hok
  | ok beacon => rw [hout, Option.some.inj hok]

theorem sampleLog_answered : Answered sampleLog :=
  List.all_eq_true.mp (show sampleLog.all (fun x => x.reply.isOk) = true from rfl)

theorem sampleLog_lasting : Lasting sampleLog := by
  intro before x after hlog hx
  have hnone : sampleLog.any isAborting = false := by rfl
  have hany : sampleLog.any isAborting = true := List.any_eq_true.mpr ⟨x, by simp [hlog], hx⟩
  rw [hnone] at hany
  cases hany

/-- The second endpoint is asked after the first, and its beacon is returned. -/
theorem fetch_protocol_sample :
    requests sampleLog <+: remainingUrls sampleFetch 2 ∧ sampleBeacon.round = 1 ∧
      Delivered 1 sampleBeacon sampleLog := by
  obtain ⟨hmade, _, hbeacon, _⟩ :=
    fetch_protocol sampleFetch sampleLog_run sampleLog_answered sampleLog_lasting
  exact ⟨hmade, (hbeacon sampleBeacon rfl).1, (hbeacon sampleBeacon rfl).2.2⟩

end Quicknet.Drand
