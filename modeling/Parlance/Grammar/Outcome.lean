import Parlance.Grammar.Cursor

/-!
# Outcomes of a parse

A production of the grammar starts at a cursor and either **matches**, leaving a cursor with fewer unread tokens, or ends
in one of three ways that no production recovers from: the current token does not fit, the tokens are used up where
another one is needed, or the cursor was read before its first step.
-/

namespace Parlance

/-- The outcome of a production that started with `n` unread tokens. -/
inductive Outcome (α : Type) (n : Nat) where
  /-- The cursor is where the production stopped. -/
  | matched (value : α) (cursor : Cursor) (progress : cursor.unread.length < n)
  /-- The cursor is on the token that does not fit. -/
  | mismatched (cursor : Cursor)
  /-- The cursor is on the last token there is. -/
  | exhausted (cursor : Cursor)
  | unstarted

namespace Outcome

variable {α β : Type} {m n : Nat}

/-- The value of a match and the cursor behind it. -/
def result? : Outcome α n → Option (α × Cursor)
  | matched a c _ => some (a, c)
  | _ => none

/-- Goes on after a match. -/
def bind (o : Outcome α m) (next : α → (c : Cursor) → c.unread.length < m → Outcome β n) : Outcome β n :=
  match o with
  | matched a c h => next a c h
  | mismatched c => mismatched c
  | exhausted c => exhausted c
  | unstarted => unstarted

/-- A match leaves fewer tokens than it started with. -/
theorem unread_length_of_result? {o : Outcome α n} {a : α} {c : Cursor} (h : o.result? = some (a, c)) :
    c.unread.length < n := by
  cases o with
  | matched _ _ progress => cases h; exact progress
  | _ => cases h

/-- Two productions in a row match where the first does and the second does behind it. -/
theorem result?_bind {o : Outcome α m} {next : α → (c : Cursor) → c.unread.length < m → Outcome β n} {r : β × Cursor} :
    (o.bind next).result? = some r ↔ ∃ a c h, o.result? = some (a, c) ∧ (next a c h).result? = some r := by
  cases o with
  | matched a c h =>
    refine ⟨fun hr => ⟨a, c, h, rfl, hr⟩, ?_⟩
    rintro ⟨_, _, _, same, hr⟩
    cases same
    exact hr
  | _ => exact ⟨nofun, fun ⟨_, _, _, h, _⟩ => nomatch h⟩

theorem result?_bind_of {o : Outcome α m} {next : α → (c : Cursor) → c.unread.length < m → Outcome β n} {r : β × Cursor}
    {a : α} {c : Cursor} (h : o.result? = some (a, c))
    (hnext : (next a c (unread_length_of_result? h)).result? = some r) : (o.bind next).result? = some r :=
  result?_bind.mpr ⟨a, c, unread_length_of_result? h, h, hnext⟩

/-- Another value for the same tokens. -/
def map (f : α → β) (o : Outcome α n) : Outcome β n := o.bind fun a c h => matched (f a) c h

theorem result?_map {f : α → β} {o : Outcome α n} : (o.map f).result? = o.result?.map fun r => (f r.1, r.2) := by
  cases o <;> rfl

/-- How many of `total` tokens have been asked for; one more than there are if the end has been met. -/
def asked (total : Nat) : Outcome α n → Nat
  | matched _ c _ => total - c.unread.length
  | mismatched c => total - c.unread.length
  | exhausted _ => total + 1
  | unstarted => 0

end Outcome

/-! ## Steps of a cursor -/

namespace Cursor

variable {α : Type} {n : Nat}

/-- Looks at the current token. -/
def look (c : Cursor) (next : Token → Outcome α n) : Outcome α n :=
  match c.current with
  | none => .unstarted
  | some t => next t

theorem result?_look {c : Cursor} {next : Token → Outcome α n} {r : α × Cursor} :
    (c.look next).result? = some r ↔ ∃ t, c.current = some t ∧ (next t).result? = some r := by
  unfold look
  split <;> simp_all [Outcome.result?]

/-- Takes the next token. -/
def take (c : Cursor) (next : Token → (d : Cursor) → d.unread.length < c.unread.length → Outcome α n) : Outcome α n :=
  match c, next with
  | ⟨current, []⟩, _ => .exhausted ⟨current, []⟩
  | ⟨_, t :: ts⟩, next => next t ⟨some t, ts⟩ (Nat.lt_succ_self _)

theorem result?_take {c : Cursor} {next : Token → (d : Cursor) → d.unread.length < c.unread.length → Outcome α n}
    {r : α × Cursor} :
    (c.take next).result? = some r ↔ ∃ t d h, c.advance = some d ∧ d.current = some t ∧ (next t d h).result? = some r := by
  obtain ⟨current, _ | ⟨t, ts⟩⟩ := c
  · exact ⟨nofun, fun ⟨_, _, _, h, _⟩ => nomatch h⟩
  · refine ⟨fun hr => ⟨t, ⟨some t, ts⟩, Nat.lt_succ_self _, rfl, rfl, hr⟩, ?_⟩
    rintro ⟨_, _, _, step, here, hr⟩
    cases step
    cases here
    exact hr

/-- Takes the next token that is no line break. -/
def takeOverNewLines (c : Cursor)
    (next : Token → (d : Cursor) → d.unread.length < c.unread.length → Outcome α n) : Outcome α n :=
  match h : c.skipNewLines with
  | (false, d) => .exhausted d
  | (true, d) => d.look fun t => next t d (unread_length_of_skipNewLines h)

/-- Takes the next token, which has to be `t`. -/
def expect (c : Cursor) (t : Token) (next : (d : Cursor) → d.unread.length < c.unread.length → Outcome α n) :
    Outcome α n :=
  c.take fun u d h => if u = t then next d h else .mismatched d

/-- Takes the next token, which has to be an identifier. -/
def expectName (c : Cursor)
    (next : String → (d : Cursor) → d.unread.length < c.unread.length → Outcome α n) : Outcome α n :=
  c.take fun
    | .identifier name, d, h => next name d h
    | _, d, _ => .mismatched d

end Cursor

end Parlance
