import Quicknet.Library.Json

/-! JSON printed over several lines, as `JSON.stringify` prints it when it is given a
number of spaces to indent by. The lexer skips the spaces before a token, so what is
read back is the value whose tokens were laid out. -/
namespace Json

/-- A token and the spaces before it. -/
abbrev LaidToken := Text × Token

def laidText (ts : List LaidToken) : Text := ts.flatMap fun t => t.1 ++ t.2.print

def lineBreak (indent depth : ℕ) : Text :=
  unit '\n' :: List.replicate (indent*depth) (unit ' ')

mutual

/-- The tokens of a value whose first token stands after `lead`. -/
def Value.layout (indent depth : ℕ) (lead : Text) : Value → List LaidToken
  | .null => [(lead, .null)]
  | .bool b => [(lead, .bool b)]
  | .number n => [(lead, .number n)]
  | .string t => [(lead, .string t)]
  | .array [] => [(lead, .openArray), ([], .closeArray)]
  | .array (v :: rest) =>
    (lead, .openArray) :: (v.layout indent (depth + 1) (lineBreak indent (depth + 1)) ++
      (layoutElements indent (depth + 1) rest ++ [(lineBreak indent depth, .closeArray)]))
  | .object [] => [(lead, .openObject), ([], .closeObject)]
  | .object ((k, v) :: rest) =>
    (lead, .openObject) :: (lineBreak indent (depth + 1), .string k) :: ([], .colon) ::
      (v.layout indent (depth + 1) [unit ' '] ++
        (layoutFields indent (depth + 1) rest ++ [(lineBreak indent depth, .closeObject)]))

/-- The elements after the first, each on a line of its own. -/
def layoutElements (indent depth : ℕ) : List Value → List LaidToken
  | [] => []
  | v :: rest =>
    ([], .comma) ::
      (v.layout indent depth (lineBreak indent depth) ++ layoutElements indent depth rest)

def layoutFields (indent depth : ℕ) : List (Text × Value) → List LaidToken
  | [] => []
  | (k, v) :: rest =>
    ([], .comma) :: (lineBreak indent depth, .string k) :: ([], .colon) ::
      (v.layout indent depth [unit ' '] ++ layoutFields indent depth rest)

end

def printIndented (indent : ℕ) (v : Value) : Text := laidText (v.layout indent 0 [])

section Layout

variable {indent : ℕ}

mutual

/-- Laying a value out changes none of its tokens. -/
theorem layout_tokens (v : Value) (depth : ℕ) (lead : Text) :
    (v.layout indent depth lead).map Prod.snd = v.tokens := by
  cases v with
  | null => rw [Value.layout, Value.tokens]; rfl
  | bool b => rw [Value.layout, Value.tokens]; rfl
  | number n => rw [Value.layout, Value.tokens]; rfl
  | string t => rw [Value.layout, Value.tokens]; rfl
  | array elements =>
    cases elements with
    | nil => rw [Value.layout, Value.tokens, elementTokens]; rfl
    | cons w ws =>
      have hw := layout_tokens w (depth + 1) (lineBreak indent (depth + 1))
      have hws := layoutElements_tokens ws (depth + 1)
      rw [Value.layout, Value.tokens, elementTokens, List.map_cons, List.map_append,
        List.map_append, hw, hws, List.append_assoc]
      rfl
  | object fields =>
    cases fields with
    | nil => rw [Value.layout, Value.tokens, fieldTokens]; rfl
    | cons f fs =>
      obtain ⟨k, w⟩ := f
      have hw := layout_tokens w (depth + 1) [unit ' ']
      have hfs := layoutFields_tokens fs (depth + 1)
      rw [Value.layout, Value.tokens, fieldTokens, List.map_cons, List.map_cons, List.map_cons,
        List.map_append, List.map_append, hw, hfs]
      simp only [List.cons_append, List.append_assoc]
      rfl

theorem layoutElements_tokens (vs : List Value) (depth : ℕ) :
    (layoutElements indent depth vs).map Prod.snd = moreElements vs := by
  cases vs with
  | nil => rw [layoutElements, moreElements]; rfl
  | cons w ws =>
    rw [layoutElements, moreElements, List.map_cons, List.map_append, layout_tokens w,
      layoutElements_tokens ws]

theorem layoutFields_tokens (fs : List (Text × Value)) (depth : ℕ) :
    (layoutFields indent depth fs).map Prod.snd = moreFields fs := by
  cases fs with
  | nil => rw [layoutFields, moreFields]; rfl
  | cons f fs =>
    obtain ⟨k, w⟩ := f
    rw [layoutFields, moreFields, List.map_cons, List.map_cons, List.map_cons, List.map_append,
      layout_tokens w, layoutFields_tokens fs]

end

/-- Nothing but spaces stands before a token. -/
def Spaced (ts : List LaidToken) : Prop := ∀ t ∈ ts, ∀ c ∈ t.1, isSpace c = true

theorem spaced_nil : Spaced [] := by simp [Spaced]

theorem spaced_cons {t : LaidToken} {ts : List LaidToken} (ht : ∀ c ∈ t.1, isSpace c = true)
    (hs : Spaced ts) : Spaced (t :: ts) := by
  intro u hu
  rcases List.mem_cons.mp hu with rfl | hu
  · exact ht
  · exact hs u hu

theorem spaced_append {ts us : List LaidToken} (ht : Spaced ts) (hu : Spaced us) :
    Spaced (ts ++ us) := by
  intro t h
  rcases List.mem_append.mp h with h | h
  · exact ht t h
  · exact hu t h

theorem isSpace_lineBreak (depth : ℕ) : ∀ c ∈ lineBreak indent depth, isSpace c = true := by
  intro c hc
  rcases List.mem_cons.mp hc with rfl | hc
  · decide
  · rw [List.eq_of_mem_replicate hc]
    decide

theorem isSpace_nil : ∀ c ∈ ([] : Text), isSpace c = true := by simp

theorem isSpace_single : ∀ c ∈ [unit ' '], isSpace c = true := by
  intro c hc
  rw [List.mem_singleton.mp hc]
  decide

mutual

theorem layout_spaced (v : Value) (depth : ℕ) {lead : Text} (hl : ∀ c ∈ lead, isSpace c = true) :
    Spaced (v.layout indent depth lead) := by
  cases v with
  | null => rw [Value.layout]; exact spaced_cons hl spaced_nil
  | bool b => rw [Value.layout]; exact spaced_cons hl spaced_nil
  | number n => rw [Value.layout]; exact spaced_cons hl spaced_nil
  | string t => rw [Value.layout]; exact spaced_cons hl spaced_nil
  | array elements =>
    cases elements with
    | nil => rw [Value.layout]; exact spaced_cons hl (spaced_cons isSpace_nil spaced_nil)
    | cons w ws =>
      rw [Value.layout]
      apply spaced_cons hl
      apply spaced_append (layout_spaced w _ (isSpace_lineBreak _))
      exact spaced_append (layoutElements_spaced ws _) (spaced_cons (isSpace_lineBreak _) spaced_nil)
  | object fields =>
    cases fields with
    | nil => rw [Value.layout]; exact spaced_cons hl (spaced_cons isSpace_nil spaced_nil)
    | cons f fs =>
      obtain ⟨k, w⟩ := f
      rw [Value.layout]
      apply spaced_cons hl
      apply spaced_cons (isSpace_lineBreak _)
      apply spaced_cons isSpace_nil
      apply spaced_append (layout_spaced w _ isSpace_single)
      exact spaced_append (layoutFields_spaced fs _) (spaced_cons (isSpace_lineBreak _) spaced_nil)

theorem layoutElements_spaced (vs : List Value) (depth : ℕ) :
    Spaced (layoutElements indent depth vs) := by
  cases vs with
  | nil => rw [layoutElements]; exact spaced_nil
  | cons w ws =>
    rw [layoutElements]
    apply spaced_cons isSpace_nil
    exact spaced_append (layout_spaced w _ (isSpace_lineBreak _)) (layoutElements_spaced ws _)

theorem layoutFields_spaced (fs : List (Text × Value)) (depth : ℕ) :
    Spaced (layoutFields indent depth fs) := by
  cases fs with
  | nil => rw [layoutFields]; exact spaced_nil
  | cons f fs =>
    obtain ⟨k, w⟩ := f
    rw [layoutFields]
    apply spaced_cons isSpace_nil
    apply spaced_cons (isSpace_lineBreak _)
    apply spaced_cons isSpace_nil
    exact spaced_append (layout_spaced w _ isSpace_single) (layoutFields_spaced fs _)

end

/-- A space ends a number. -/
theorem endsNumber_append {spaces : Text} (hsp : ∀ c ∈ spaces, isSpace c = true) {rest : Text}
    (hr : EndsNumber rest) : EndsNumber (spaces ++ rest) := by
  cases spaces with
  | nil => exact hr
  | cons c cs =>
    -- only the first unit decides
    intro d hd
    exact endsNumber_spaces hsp d hd

/-- The lexer skips spaces, and has steps left for what follows them. -/
theorem lexTokens_skip {spaces : Text} (hsp : ∀ c ∈ spaces, isSpace c = true) (rest : Text)
    {n : ℕ} (hn : (spaces ++ rest).length ≤ n) :
    ∃ m, rest.length ≤ m ∧ lexTokens n (spaces ++ rest) = lexTokens m rest := by
  induction spaces generalizing n with
  | nil => exact ⟨n, hn, rfl⟩
  | cons c cs ih =>
    rw [List.cons_append, List.length_cons] at hn
    obtain ⟨k, rfl⟩ := Nat.exists_eq_succ_of_ne_zero (by omega : n ≠ 0)
    have hc : isSpace c = true := hsp c List.mem_cons_self
    obtain ⟨m, hm, hlex⟩ := ih (fun d hd => hsp d (List.mem_cons_of_mem c hd))
      (n := k) (by omega)
    refine ⟨m, hm, ?_⟩
    rw [List.cons_append, lexTokens, if_pos hc, hlex]

/-- Separated tokens are read back from where they are laid out. -/
theorem lexTokens_laid {ts : List LaidToken} (hs : Separated (ts.map Prod.snd))
    (hl : Spaced ts) {spaces : Text} (hsp : ∀ c ∈ spaces, isSpace c = true) {n : ℕ}
    (hn : (laidText ts ++ spaces).length ≤ n) :
    lexTokens n (laidText ts ++ spaces) = some (ts.map Prod.snd) := by
  induction ts generalizing n with
  | nil => exact lexTokens_spaces hsp hn
  | cons t ts ih =>
    have htail : Spaced ts := fun u hu => hl u (List.mem_cons_of_mem t hu)
    have hends : t.2.isNumber = true → EndsNumber (laidText ts ++ spaces) := by
      intro ht
      cases ts with
      | nil => exact endsNumber_spaces hsp
      | cons u us =>
        have hu := (List.isChain_cons_cons.mp hs).1
        have hlaid : laidText (u :: us) ++ spaces = u.1 ++ (u.2.print ++ (laidText us ++ spaces)) := by
          simp [laidText, List.append_assoc]
        rw [hlaid]
        apply endsNumber_append (htail u List.mem_cons_self)
        apply Token.endsNumber
        simpa [ht] using hu
    have hlaid : laidText (t :: ts) ++ spaces = t.1 ++ (t.2.print ++ (laidText ts ++ spaces)) := by
      simp [laidText, List.append_assoc]
    rw [hlaid] at hn ⊢
    obtain ⟨m, hm, hskip⟩ := lexTokens_skip (hl t List.mem_cons_self) _ hn
    rw [hskip]
    obtain ⟨c, cs, hp, hspace, hlex⟩ := lexToken_print t.2 hends
    -- every token prints something, so one step of the lexer is left over
    have hlen : (laidText ts ++ spaces).length < m := by
      have hpos : 0 < t.2.print.length := List.length_pos_iff.mpr t.2.print_ne_nil
      rw [List.length_append] at hm
      omega
    obtain ⟨k, rfl⟩ := Nat.exists_eq_succ_of_ne_zero (by omega : m ≠ 0)
    have hrest := ih (List.IsChain.tail hs) htail (Nat.lt_succ_iff.mp hlen)
    rw [hp]
    simp only [lexTokens, hspace, hlex, Bool.false_eq_true, if_false, Option.bind_some, hrest,
      Option.map_some, List.map_cons]

/-- Parsing what a value prints over several lines gives the value. -/
theorem parse_printIndented_append (v : Value) {spaces : Text}
    (hsp : ∀ c ∈ spaces, isSpace c = true) :
    parse (printIndented indent v ++ spaces) = some v := by
  have htokens := @layout_tokens indent v 0 []
  have hsep : Separated ((v.layout indent 0 []).map Prod.snd) := by
    rw [htokens]
    exact separated_value v
  have hlex := lexTokens_laid hsep (layout_spaced v 0 isSpace_nil) hsp le_rfl
  unfold parse printIndented
  rw [hlex, htokens, Option.bind_some, run_value, Option.bind_some]

end Layout

end Json
