import Parlance.Token

/-!
# A cursor over tokens

The parser sees one token at a time and never goes back. A **cursor** stands on the token taken last; before the first
step it stands on none. When the tokens are used up it stays where it is.
-/

namespace Parlance

structure Cursor where
  /-- The token taken last. -/
  current : Option Token
  unread : List Token

namespace Cursor

/-- The cursor in front of the first token. -/
def before (tokens : List Token) : Cursor := ⟨none, tokens⟩

/-- What is said of a program that looks at the current token before the first step. -/
def unstartedMessage : String := "token cursor read before the first advance"

/-- The cursor on the next token, if there is one. -/
def advance (c : Cursor) : Option Cursor :=
  match c.unread with
  | [] => none
  | t :: ts => some ⟨some t, ts⟩

/-- Goes on to the next token that is no line break, from a cursor on `current`. The flag tells whether there is one; if
not, the cursor is left on the last line break. -/
def overNewLines (current : Option Token) : List Token → Bool × Cursor
  | [] => (false, ⟨current, []⟩)
  | .newLine :: ts => overNewLines (some .newLine) ts
  | t :: ts => (true, ⟨some t, ts⟩)

def skipNewLines (c : Cursor) : Bool × Cursor := overNewLines c.current c.unread

theorem unread_length_of_advance {c d : Cursor} (h : c.advance = some d) : d.unread.length < c.unread.length := by
  unfold advance at h
  split at h <;> simp_all only [reduceCtorEq, Option.some.injEq]
  subst h
  simp

/-- Two steps, from a cursor that has made progress. -/
theorem unread_length_two {n : Nat} {c d e : Cursor} (hc : c.unread.length < n) (hd : d.unread.length < c.unread.length)
    (he : e.unread.length < d.unread.length) : e.unread.length < n :=
  Nat.lt_trans he (Nat.lt_trans hd hc)

/-- Three steps. -/
theorem unread_length_three {c d e f : Cursor} (hd : d.unread.length < c.unread.length)
    (he : e.unread.length < d.unread.length) (hf : f.unread.length < e.unread.length) :
    f.unread.length < c.unread.length :=
  unread_length_two hd he hf

/-- Where there is a token behind the line breaks, the step to it makes the unread tokens fewer. -/
theorem unread_length_of_skipNewLines {c d : Cursor} (h : c.skipNewLines = (true, d)) :
    d.unread.length < c.unread.length := by
  obtain ⟨current, unread⟩ := c
  simp only [skipNewLines] at h
  fun_induction overNewLines current unread with
  | case1 => simp at h
  | case2 _ _ ih => exact Nat.lt_succ_of_lt (ih h)
  | case3 => simp only [Prod.mk.injEq, true_and] at h; subst h; exact Nat.lt_succ_self _

end Cursor

end Parlance
