import Parlance.Grammar.Outcome

/-!
# The tokens ahead of a cursor

A production is stated on token lists through two views of a cursor: `ahead` is the current token and everything behind it,
and `on ts` is the cursor that stands on the first of `ts`.

* a step takes the first token off `ahead` (`ahead_of_advance`);
* a production that never looked at an unstarted cursor either matches or fails (`Outcome.Started.fails_iff`).
-/

namespace Parlance

/-- So many line breaks. -/
def lineBreaks (n : Nat) : List Token := List.replicate n .newLine

namespace Cursor

/-! ## The two views -/

/-- The current token, if there is one, and the unread ones. -/
def ahead (c : Cursor) : List Token := c.current.toList ++ c.unread

/-- The cursor on the first of these tokens. -/
def on : List Token → Cursor
  | [] => ⟨none, []⟩
  | t :: ts => ⟨some t, ts⟩

@[simp] theorem on_cons (t : Token) (ts : List Token) : on (t :: ts) = ⟨some t, ts⟩ := rfl

theorem ahead_on : ∀ ts : List Token, (on ts).ahead = ts
  | [] => rfl
  | _ :: _ => rfl

theorem on_ahead {c : Cursor} {t : Token} (h : c.current = some t) : on c.ahead = c := by
  obtain ⟨current, unread⟩ := c
  cases h
  rfl

theorem ahead_of_current {c : Cursor} {t : Token} (h : c.current = some t) : c.ahead = t :: c.unread := by
  simp [ahead, h]

theorem unread_on (ts : List Token) : (on ts).unread = ts.tail := by
  cases ts <;> rfl

/-! ## Steps -/

theorem unread_of_advance {c d : Cursor} (h : c.advance = some d) : c.unread = d.ahead := by
  obtain ⟨current, _ | ⟨u, us⟩⟩ := c
  · cases h
  · cases h
    rfl

theorem unread_of_advance_eq_none {c : Cursor} (h : c.advance = none) : c.unread = [] := by
  obtain ⟨current, _ | ⟨u, us⟩⟩ := c
  · rfl
  · cases h

theorem current_of_advance {c d : Cursor} (h : c.advance = some d) : d.current.isSome := by
  obtain ⟨current, _ | ⟨u, us⟩⟩ := c
  · cases h
  · cases h
    rfl

/-- A step takes the current token off the tokens ahead. -/
theorem ahead_of_advance {c d : Cursor} {t : Token} (ht : c.current = some t) (h : c.advance = some d) :
    c.ahead = t :: d.ahead := by
  rw [ahead_of_current ht, unread_of_advance h]

/-! ## Steps that require a token -/

section Required

variable {α : Type} {n : Nat} {c : Cursor} {r : α × Cursor}

theorem result?_expect {t : Token} {next : (d : Cursor) → d.unread.length < c.unread.length → Outcome α n} :
    (c.expect t next).result? = some r ↔
      ∃ d h, c.advance = some d ∧ d.current = some t ∧ (next d h).result? = some r := by
  rw [expect, result?_take]
  constructor
  · rintro ⟨u, d, h, hstep, hu, hr⟩
    split at hr
    · rename_i hut
      exact ⟨d, h, hstep, hut ▸ hu, hr⟩
    · cases hr
  · rintro ⟨d, h, hstep, ht, hr⟩
    exact ⟨t, d, h, hstep, ht, by rw [if_pos rfl]; exact hr⟩

theorem result?_expectName {next : String → (d : Cursor) → d.unread.length < c.unread.length → Outcome α n} :
    (c.expectName next).result? = some r ↔
      ∃ name d h, c.advance = some d ∧ d.current = some (.identifier name) ∧ (next name d h).result? = some r := by
  rw [expectName, result?_take]
  constructor
  · rintro ⟨u, d, h, hstep, hu, hr⟩
    split at hr
    · exact ⟨_, d, h, hstep, hu, hr⟩
    · cases hr
  · rintro ⟨name, d, h, hstep, hname, hr⟩
    exact ⟨_, d, h, hstep, hname, hr⟩

theorem overNewLines_lineBreaks (n : Nat) (current : Option Token) {t : Token} (ts : List Token) (ht : t ≠ .newLine) :
    overNewLines current (lineBreaks n ++ t :: ts) = (true, ⟨some t, ts⟩) := by
  induction n generalizing current with
  | zero => cases t <;> first | rfl | exact absurd rfl ht
  | succ n ih => exact ih _

/-- Stepping over line breaks ends on the first token that is none. -/
theorem lineBreaks_of_overNewLines {current : Option Token} {ts : List Token} {d : Cursor}
    (h : overNewLines current ts = (true, d)) :
    ∃ n t, ts = lineBreaks n ++ t :: d.unread ∧ d.current = some t ∧ t ≠ .newLine := by
  fun_induction overNewLines current ts with
  | case1 => simp at h
  | case2 _ ts ih =>
    obtain ⟨n, t, hts, ht, hne⟩ := ih h
    exact ⟨n + 1, t, by rw [hts]; rfl, ht, hne⟩
  | case3 _ t ts hne =>
    cases h
    exact ⟨0, t, rfl, rfl, hne⟩

theorem result?_takeOverNewLines {next : Token → (d : Cursor) → d.unread.length < c.unread.length → Outcome α n} :
    (c.takeOverNewLines next).result? = some r ↔
      ∃ k t d h, c.unread = lineBreaks k ++ t :: d.unread ∧ d.current = some t ∧ t ≠ .newLine ∧
        (next t d h).result? = some r := by
  unfold takeOverNewLines
  split
  · rename_i d hd
    refine ⟨nofun, ?_⟩
    rintro ⟨k, t, e, -, hk, -, ht, -⟩
    rw [skipNewLines, hk, overNewLines_lineBreaks k _ _ ht] at hd
    cases hd
  · rename_i d hd
    obtain ⟨k, t, hk, ht, hne⟩ := lineBreaks_of_overNewLines hd
    rw [result?_look]
    constructor
    · rintro ⟨u, hu, hr⟩
      cases ht.symm.trans hu
      exact ⟨k, t, d, _, hk, ht, hne, hr⟩
    · rintro ⟨j, u, ⟨_, us⟩, h, hj, hu, hne', hr⟩
      cases hu
      have hd' : c.skipNewLines = (true, ⟨some u, us⟩) := by rw [skipNewLines, hj, overNewLines_lineBreaks j _ _ hne']
      cases hd.symm.trans hd'
      exact ⟨u, rfl, hr⟩

/-- With no other token behind the line breaks, one more is asked for than there are. -/
theorem takeOverNewLines_of_none {d : Cursor} {next : Token → (d : Cursor) → d.unread.length < c.unread.length → Outcome α n}
    (h : c.skipNewLines = (false, d)) : c.takeOverNewLines next = .exhausted d := by
  unfold takeOverNewLines
  split
  · rename_i hd
    cases h.symm.trans hd
    rfl
  · rename_i hd
    cases h.symm.trans hd

theorem takeOverNewLines_of_found {d : Cursor} {next : Token → (d : Cursor) → d.unread.length < c.unread.length → Outcome α n}
    (h : c.skipNewLines = (true, d)) :
    c.takeOverNewLines next = d.look fun t => next t d (unread_length_of_skipNewLines h) := by
  unfold takeOverNewLines
  split
  · rename_i hd
    cases h.symm.trans hd
  · rename_i hd
    cases h.symm.trans hd
    rfl

end Required

end Cursor

/-! ## Started cursors -/

namespace Outcome

variable {α β : Type} {m n : Nat}

/-- The outcome of a production that never looked at a cursor before its first step: wherever it stops, there is a current
token. -/
def Started : Outcome α n → Prop
  | matched _ c _ | mismatched c | exhausted c => c.current.isSome
  | unstarted => False

/-- The production gives no value: a token does not fit, or there is none where one is needed. -/
def Fails (o : Outcome α n) : Prop := ∃ c, o = mismatched c ∨ o = exhausted c

theorem Started.fails_iff {o : Outcome α n} (h : o.Started) : o.Fails ↔ o.result? = none := by
  cases o with
  | matched a c hc => simp [Fails, result?]
  | mismatched c => simp [Fails, result?]
  | exhausted c => simp [Fails, result?]
  | unstarted => exact h.elim

end Outcome

end Parlance
