import Parlance.Proofs.Grammar.Progress

/-!
# Where the cursor stands

`Passes` follows the parse of a file or of an expression through all its productions, at whatever depth of calls. Wherever it
passes, the current token of the cursor is the last significant token taken (`Passes.takes`), and it is looked at only
where there is one (`Passes.isSome`). A step that finds no token changes nothing, and the step over line breaks is single
steps, one after the other (`skipNewLines_eq`, `takes_of_skipNewLines`).
-/

namespace Parlance

/-! ## Steps over line breaks -/

namespace Cursor

/-- Single steps up to one that does not end on a line break. -/
theorem skipNewLines_eq (c : Cursor) : c.skipNewLines =
    match c.advance with
    | none => (false, c)
    | some d => if d.current = some .newLine then d.skipNewLines else (true, d) := by
  obtain ⟨current, _ | ⟨t, ts⟩⟩ := c
  · rfl
  · by_cases ht : t = .newLine
    · subst ht
      rfl
    · have hstop : overNewLines current (t :: ts) = (true, ⟨some t, ts⟩) := overNewLines_lineBreaks 0 current ts ht
      simp only [skipNewLines, hstop, advance, Option.some.injEq, if_neg ht]

/-- They take line breaks, and then one other token unless the tokens are used up. -/
theorem takes_of_skipNewLines {c d : Cursor} {found : Bool} (h : c.skipNewLines = (found, d)) : ∃ n,
    if found then ∃ t, t ≠ .newLine ∧ c.Takes (lineBreaks n ++ [t]) d
    else c.Takes (lineBreaks n) d ∧ d.unread = [] ∧ d.current = if n = 0 then c.current else some .newLine := by
  obtain ⟨current, unread⟩ := c
  simp only [skipNewLines] at h
  fun_induction overNewLines current unread with
  | case1 current =>
    cases h
    exact ⟨0, .none _, rfl, rfl⟩
  | case2 current ts ih =>
    obtain ⟨n, hn⟩ := ih h
    refine ⟨n + 1, ?_⟩
    cases found with
    | true =>
      obtain ⟨t, ht, htakes⟩ := hn
      exact ⟨t, ht, htakes.cons⟩
    | false =>
      obtain ⟨htakes, hunread, hcurrent⟩ := hn
      refine ⟨htakes.cons, hunread, ?_⟩
      rw [hcurrent, if_neg (Nat.succ_ne_zero n)]
      split <;> rfl
  | case3 current t ts ht =>
    cases h
    exact ⟨0, t, ht, (Takes.none _).cons⟩

end Cursor

/-! ## Everything a parse passes -/

namespace Grammar

/-- In carrying out the production `p` from the cursor `c` one comes to what is left of some plan, at a later cursor: of the
plan of `p` or of a production called on the way. -/
inductive Passes (p : Production) (c : Cursor) : {α : Type} → (r : Plan α) → (d : Cursor) → Prop
  | own {r : Plan p.Value} {d : Cursor} : (plan p).Reaches c r d → Passes p c r d
  | called {α : Type} {q : Production} {next : q.Value → Plan α} {otherwise : Plan α} {e : Cursor} {r : Plan q.Value}
      {d : Cursor} : Passes p c (.call q next otherwise) e → (plan q).Reaches e r d → Passes p c r d

/-- At this place a current token is needed: for a look, or for a production to begin on. -/
def Plan.Needs {α : Type} : Plan α → Prop
  | look _ | call _ _ _ => True
  | _ => False

section Passes

variable {α : Type} {p : Production} {c d : Cursor} {r : Plan α} {tokens : List Token}

theorem Passes.takes (h : Passes p c r d) : ∃ w, c.Takes w d := by
  induction h with
  | own h => exact h.takes
  | called _ h ih =>
    obtain ⟨v, hv⟩ := ih
    obtain ⟨w, hw⟩ := h.takes
    exact ⟨v ++ w, hv.trans hw⟩

/-- A parse begins with a step, and there is a current token behind it. -/
theorem isSome_of_step {β : Type} {next : Token → Plan β} {otherwise r : Plan β}
    (h : (Plan.step next otherwise).Reaches c r d) (hends : ∀ d r, otherwise.Reaches c r d → ¬ r.Needs) (hr : r.Needs) :
    d.current.isSome := by
  cases h with
  | here => exact hr.elim
  | taken h =>
    obtain ⟨w, hw⟩ := h.takes
    exact hw.isSome rfl
  | exhausted h => exact absurd hr (hends _ _ h)

/-- In a parse, a current token is needed only where there is one. -/
theorem Passes.isSome (hp : p = .file ∨ p = .single) (h : Passes p c r d) (hr : r.Needs) : d.current.isSome := by
  induction h with
  | own h =>
    rcases hp with rfl | rfl
    · refine isSome_of_step h (fun d r h => ?_) hr
      cases h
      exact id
    · refine isSome_of_step h (fun d r h => ?_) hr
      cases h
      exact id
  | called _ h ih =>
    obtain ⟨w, hw⟩ := h.takes
    exact hw.isSome (ih trivial)

/-- The significant tokens taken are those of the tokens in front of the cursor. -/
theorem Passes.exists_taken (h : Passes p (Cursor.before (significant tokens)) r d) :
    ∃ front rest, tokens = front ++ rest ∧ d.current = (significant front).getLast? ∧ d.unread = significant rest := by
  obtain ⟨w, hw⟩ := h.takes
  obtain ⟨front, rest, htokens, hfront, hrest⟩ := List.filter_eq_append_iff.mp hw.unread
  refine ⟨front, rest, htokens, ?_, hrest.symm⟩
  rw [hw.current, ← hfront]
  exact Option.or_none

/-- No parse looks at a cursor in front of its first token. -/
theorem answer_before_ne_unstarted (hp : p = .file ∨ p = .single) (ts : List Token) :
    answer p (Cursor.before ts) ≠ .unstarted := by
  intro ha
  have hends := (plan p).endsIn_answer (Cursor.before ts)
  rw [← answer_plan, ha] at hends
  obtain ⟨r, d, hreaches, hstuck⟩ := hends
  have hpasses : Passes p (Cursor.before ts) r d := .own hreaches
  cases hstuck with
  | look hnone =>
    have hd := hpasses.isSome hp trivial
    rw [hnone] at hd
    cases hd
  | call hq => exact answer_ne_unstarted _ d (hpasses.isSome hp trivial) hq

/-- A parse passes its end. -/
theorem passes_of_found {v : p.Value} (h : answer p c = .found v d) : Passes p c (.done v) d := by
  have hends := (plan p).endsIn_answer c
  rw [← answer_plan, h] at hends
  exact .own hends

theorem passes_of_failed (h : answer p c = .failed d) : Passes p c (.fail : Plan p.Value) d := by
  have hends := (plan p).endsIn_answer c
  rw [← answer_plan, h] at hends
  exact .own hends

theorem passes_single (tokens : List Token) :
    match Expr.ofTokens? tokens with
    | some e => ∃ d, Passes .single (Cursor.before (significant tokens)) (.done e : Plan Expr) d
    | none => ∃ d, Passes .single (Cursor.before (significant tokens)) (.fail : Plan Expr) d := by
  have hanswer := answer_single tokens
  rw [Expr.ofTokens?]
  cases ho : Expr.outcome tokens with
  | matched e d h =>
    rw [ho] at hanswer
    exact ⟨d, passes_of_found hanswer⟩
  | mismatched d | exhausted d =>
    rw [ho] at hanswer
    exact ⟨d, passes_of_failed hanswer⟩
  | unstarted =>
    rw [ho] at hanswer
    exact absurd hanswer (answer_before_ne_unstarted (.inr rfl) _)

end Passes

/-- **The current token is the last one taken.** No parse of a file or of an expression reads the cursor before its first
step, whatever the tokens are. All the way through, down to every production called, the current token is the last
significant one of those taken; a step that finds no token changes nothing; and the step over line breaks is single steps up
to a token that is none, or to the end, and then it leaves the cursor on the last line break it took, if any. -/
theorem current_eq_last_taken :
    (∀ tokens,
      ((Reading.ofTokens tokens).ending ≠ .unstarted ∧ Expr.outcome tokens ≠ .unstarted) ∧
      (∃ d, Passes .file (Cursor.before (significant tokens)) (.done (File.ofTokens tokens).entities : Plan (List Entity)) d) ∧
      (match Expr.ofTokens? tokens with
        | some e => ∃ d, Passes .single (Cursor.before (significant tokens)) (.done e : Plan Expr) d
        | none => ∃ d, Passes .single (Cursor.before (significant tokens)) (.fail : Plan Expr) d) ∧
      ∀ p, p = .file ∨ p = .single → ∀ (α : Type) (r : Plan α) d, Passes p (Cursor.before (significant tokens)) r d →
        (r.Needs → d.current.isSome) ∧
        ∃ front rest, tokens = front ++ rest ∧ d.current = (significant front).getLast? ∧ d.unread = significant rest) ∧
    (∀ c : Cursor, c.advance = none → c.stepped = c ∧
      ∀ (α : Type) n (next : Token → (d : Cursor) → d.unread.length < c.unread.length → Outcome α n),
        c.take next = .exhausted c) ∧
    ∀ c : Cursor,
      (c.skipNewLines =
        match c.advance with
        | none => (false, c)
        | some d => if d.current = some .newLine then d.skipNewLines else (true, d)) ∧
      ∀ found d, c.skipNewLines = (found, d) → ∃ n,
        if found then ∃ t, t ≠ .newLine ∧ c.Takes (lineBreaks n ++ [t]) d
        else c.Takes (lineBreaks n) d ∧ d.unread = [] ∧ d.current = if n = 0 then c.current else some .newLine := by
  refine ⟨fun tokens => ⟨⟨?_, ?_⟩, ?_, passes_single tokens, ?_⟩, ?_, ?_⟩
  · cases h : significant tokens with
    | nil =>
      rw [Reading.ofTokens, h]
      intro hending
      cases hending
    | cons t ts =>
      rw [reading_ofTokens (by simp [h]), h]
      exact ending_entities _ _ rfl
  · intro h
    have hanswer := answer_single tokens
    rw [h] at hanswer
    exact answer_before_ne_unstarted (.inr rfl) _ hanswer
  · obtain ⟨d, hd⟩ := answer_file tokens
    exact ⟨d, passes_of_found hd⟩
  · exact fun p hp α r d h => ⟨h.isSome hp, h.exists_taken⟩
  · rintro ⟨current, _ | ⟨t, ts⟩⟩ h
    · exact ⟨rfl, fun _ _ _ => rfl⟩
    · cases h
  · exact fun c => ⟨c.skipNewLines_eq, fun found d => Cursor.takes_of_skipNewLines⟩

/-- A file of one line break behind a blank, where the file loop is about to begin; and what is left in front of it. -/
theorem current_eq_last_taken_newLine :
    (Passes .file (Cursor.before (significant [.blank, .newLine, .endOfInput])) (plan .entities)
        ⟨some .newLine, [.endOfInput]⟩ ∧
      ∃ front rest, [Token.blank, .newLine, .endOfInput] = front ++ rest ∧
        some Token.newLine = (significant front).getLast? ∧ [Token.endOfInput] = significant rest) ∧
    ((Cursor.mk (some .rightCurl) []).advance = none ∧
      (Cursor.mk (some .rightCurl) []).stepped = ⟨some .rightCurl, []⟩) ∧
    (Cursor.mk (some .colon) [.newLine]).skipNewLines = (false, ⟨some .newLine, []⟩) ∧
      ∃ n, Cursor.Takes ⟨some .colon, [.newLine]⟩ (lineBreaks n) ⟨some .newLine, []⟩ := by
  obtain ⟨hparses, hstep, hskip⟩ := current_eq_last_taken
  have hpasses : Passes .file (Cursor.before (significant [.blank, .newLine, .endOfInput])) (plan .entities)
      ⟨some .newLine, [.endOfInput]⟩ := .called (.own (.taken .here)) .here
  refine ⟨⟨hpasses, ?_⟩, ⟨rfl, (hstep _ rfl).1⟩, rfl, ?_⟩
  · exact ((hparses _).2.2.2 .file (.inl rfl) _ _ _ hpasses).2
  · obtain ⟨n, htakes, -⟩ := (hskip ⟨some .colon, [.newLine]⟩).2 false _ rfl
    exact ⟨n, htakes⟩

end Grammar

end Parlance
