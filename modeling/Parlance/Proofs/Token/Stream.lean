import Parlance.Token.Stream

/-!
# Tokens on demand are the tokens of the text

A stream gives the tokens that the automaton completes on the whole text, one by one, and reads for each of them no more
characters than it takes (`Fewest`). What it has read and given after `k` calls is known from the text alone (`reached`,
`after_reached`): the automaton is where the characters read so far leave it, and the tokens that they complete beyond the
first `k`, one at most, are pending (`completed_ofText`, `Fewest.length_le`).
-/

namespace Parlance

/-! ## Beginnings of a text -/

/-- The tokens of a beginning of the text are the first ones of the text. -/
theorem tokensOf_take_add (text : List Char) (j i : Nat) :
    tokensOf (text.take (j + i)) =
      tokensOf (text.take j) ++ ((Automaton.fresh.run (text.take j)).1.run ((text.drop j).take i)).2 := by
  simp only [tokensOf, List.take_add, Automaton.run_append]

theorem isPrefix_tokensOf_take (text : List Char) (j : Nat) : tokensOf (text.take j) <+: tokensOf text := by
  have h := Automaton.run_append .fresh (text.take j) (text.drop j)
  rw [List.take_append_drop] at h
  simp only [tokensOf, h]
  exact List.prefix_append _ _

namespace TokenStream

/-- The first `j` characters of the text are the fewest that complete `k` tokens; if no number of them does, they are
all. -/
structure Fewest (text : List Char) (k j : Nat) : Prop where
  le : j ≤ text.length
  before : ∀ i < j, (tokensOf (text.take i)).length < k
  enough : j < text.length → k ≤ (tokensOf (text.take j)).length

theorem Fewest.zero (text : List Char) : Fewest text 0 0 :=
  ⟨Nat.zero_le _, by simp, by simp⟩

/-- A token that the text has is among those of the fewest characters that complete so many. -/
theorem Fewest.getElem? {text : List Char} {k j : Nat} (h : Fewest text (k + 1) j) :
    (tokensOf (text.take j))[k]? = (tokensOf text)[k]? := by
  by_cases hj : j < text.length
  · have hk : k < (tokensOf (text.take j)).length := h.enough hj
    obtain ⟨rest, hrest⟩ := isPrefix_tokensOf_take text j
    rw [← hrest, List.getElem?_append_left hk]
  · rw [List.take_of_length_le (by omega)]

/-! ## What is read -/

/-- Characters are read until one completes a token. -/
theorem refill_eq (a : Automaton) (cs : List Char) :
    ∃ i ≤ cs.length, refill a cs = ⟨cs.drop i, (a.run (cs.take i)).1, (a.run (cs.take i)).2⟩ ∧
      (∀ m < i, (a.run (cs.take m)).2 = []) ∧ (i < cs.length → (a.run (cs.take i)).2 ≠ []) := by
  induction cs generalizing a with
  | nil => exact ⟨0, by simp, rfl, by simp, by simp⟩
  | cons c cs ih =>
    cases hfeed : a.feed c with
    | mk b ts =>
      cases ts with
      | nil =>
        obtain ⟨i, hi, hrefill, hbefore, hstop⟩ := ih b
        have hrun : ∀ m, a.run ((c :: cs).take (m + 1)) = b.run (cs.take m) := by
          intro m
          simp [Automaton.run, hfeed]
        refine ⟨i + 1, by simpa using hi, ?_, ?_, ?_⟩
        · simp only [refill, hfeed, hrefill, hrun, List.drop_succ_cons]
        · intro m hm
          cases m with
          | zero => rfl
          | succ m =>
            rw [hrun]
            exact hbefore m (by omega)
        · intro hlt
          rw [hrun]
          exact hstop (by simpa using hlt)
      | cons t ts =>
        refine ⟨1, by simp, ?_, ?_, ?_⟩
        · simp [refill, hfeed, Automaton.run]
        · intro m hm
          obtain rfl : m = 0 := by omega
          rfl
        · simp [hfeed, Automaton.run]

theorem head_tail_append {α : Type} {us vs : List α} {k : Nat} (hle : us.length ≤ k) (h : us.length = k ∨ vs = []) :
    (us ++ vs)[k]? = vs.head? ∧ (us ++ vs).drop (k + 1) = vs.tail := by
  rcases h with rfl | rfl
  · cases vs <;> simp
  · simp
    omega

/-- The stream that has read `j` characters of the text and given `k` of the tokens that they complete. -/
def reached (text : List Char) (k j : Nat) : TokenStream :=
  ⟨text.drop j, (Automaton.fresh.run (text.take j)).1, (tokensOf (text.take j)).drop k⟩

/-- One call gives the next token and reads no more than the fewest characters that complete it. -/
theorem next_reached {text : List Char} {k j : Nat} (h : Fewest text k j) :
    ∃ i, Fewest text (k + 1) i ∧ (reached text k j).next = ((tokensOf (text.take i))[k]?, reached text (k + 1) i) := by
  cases hpending : (tokensOf (text.take j)).drop k with
  | cons t ts =>
    -- the character that completed the last token completed this one too
    have hlen : k < (tokensOf (text.take j)).length := by
      have hpos : 0 < ((tokensOf (text.take j)).drop k).length := by simp [hpending]
      rw [List.length_drop] at hpos
      omega
    refine ⟨j, ⟨h.le, ?_, fun _ => hlen⟩, ?_⟩
    · intro i hi
      have := h.before i hi
      omega
    · rw [List.drop_eq_getElem_cons hlen] at hpending
      simp only [List.cons.injEq] at hpending
      simp only [reached, next, List.drop_eq_getElem_cons hlen, List.getElem?_eq_getElem hlen]
  | nil =>
    have hlen : (tokensOf (text.take j)).length ≤ k := by simpa using hpending
    obtain ⟨i, hi, hrefill, hbefore, hstop⟩ := refill_eq (Automaton.fresh.run (text.take j)).1 (text.drop j)
    have hdrop : (text.drop j).length = text.length - j := List.length_drop
    have hle := h.le
    have henough := h.enough
    have hadd := tokensOf_take_add text j
    refine ⟨j + i, ⟨by omega, ?_, ?_⟩, ?_⟩
    · intro m hm
      by_cases hmj : m < j
      · have := h.before m hmj
        omega
      · obtain ⟨m, rfl⟩ : ∃ d, m = j + d := ⟨m - j, by omega⟩
        rw [hadd, hbefore m (by omega), List.append_nil]
        omega
    · intro hlt
      have hpos := List.length_pos_iff.mpr (hstop (by omega))
      have hk := henough (by omega)
      rw [hadd, List.length_append]
      omega
    · have hnew : (tokensOf (text.take j)).length = k ∨
          ((Automaton.fresh.run (text.take j)).1.run ((text.drop j).take i)).2 = [] := by
        by_cases hj : j < text.length
        · have hk := henough hj
          exact .inl (by omega)
        · obtain rfl : i = 0 := by omega
          exact .inr rfl
      obtain ⟨hhead, htail⟩ := head_tail_append hlen hnew
      have hstate : (Automaton.fresh.run (text.take (j + i))).1 =
          ((Automaton.fresh.run (text.take j)).1.run ((text.drop j).take i)).1 := by
        rw [List.take_add, Automaton.run_append]
      simp only [reached, next, hpending, hrefill, hadd, hhead, htail, hstate, List.drop_drop]

/-! ## Many calls -/

theorem after_succ (s : TokenStream) (k : Nat) : s.after (k + 1) = (s.after k).next.2 := by
  induction k generalizing s with
  | zero => rfl
  | succ k ih => exact ih s.next.2

/-- After `k` calls, as many characters are read as it takes to complete `k` tokens. -/
theorem after_reached (text : List Char) (k : Nat) : ∃ j, Fewest text k j ∧ (ofText text).after k = reached text k j := by
  induction k with
  | zero => exact ⟨0, .zero text, rfl⟩
  | succ k ih =>
    obtain ⟨j, hj, hafter⟩ := ih
    obtain ⟨i, hi, hnext⟩ := next_reached hj
    refine ⟨i, hi, ?_⟩
    rw [after_succ, hafter, hnext]

/-- The last character completes one token too many at most. -/
theorem Fewest.length_le {text : List Char} {k j : Nat} (h : Fewest text k j) :
    (tokensOf (text.take j)).length ≤ k + 1 := by
  cases j with
  | zero => simp [tokensOf, Automaton.run]
  | succ j =>
    have hbefore := h.before j (Nat.lt_succ_self j)
    have hlast : ((Automaton.fresh.run (text.take j)).1.run ((text.drop j).take 1)).2.length ≤ 2 := by
      cases text.drop j with
      | nil => simp [Automaton.run]
      | cons c cs => simpa [Automaton.run] using Automaton.length_feed_le _ c
    rw [tokensOf_take_add, List.length_append]
    omega

theorem length_calls (s : TokenStream) (n : Nat) : (s.calls n).length = n := by
  induction n generalizing s with
  | zero => rfl
  | succ n ih => simp [calls, ih]

theorem getElem?_calls {n k : Nat} (s : TokenStream) (h : k < n) :
    (s.calls n)[k]? = some ((s.after k).next.1, (s.after k).next.2.unread.length) := by
  induction n generalizing s k with
  | zero => omega
  | succ n ih =>
    cases k with
    | zero => rfl
    | succ k => exact ih s.next.2 (by omega)

/-- A stream that has given all the tokens of the text has read all of it, and a call changes nothing. -/
theorem next_of_length_lt {text : List Char} {k j : Nat} (h : Fewest text k j) (hk : (tokensOf text).length < k) :
    (reached text k j).next = (none, reached text k j) := by
  have hlen := (isPrefix_tokensOf_take text j).length_le
  have hdrop : (tokensOf (text.take j)).drop k = [] := List.drop_of_length_le (by omega)
  have hread : text.drop j = [] := by
    by_cases hj : j < text.length
    · have := h.enough hj
      omega
    · exact List.drop_of_length_le (by omega)
  simp [reached, next, hdrop, hread, refill]

/-- **A stream gives the tokens of the text, and none too early.** Of `n` calls, the one with index `k` answers with the
token of that index among all that the automaton completes on the text, or with nothing if there are fewer; the characters
read by then are the fewest that complete `k + 1` tokens, or all of them. A call behind the first one without a token has
none either and leaves the stream as it is. -/
theorem calls_eager (text : List Char) (n : Nat) :
    ((ofText text).calls n).length = n ∧
    (∀ k < n, ∃ j, Fewest text (k + 1) j ∧
      ((ofText text).calls n)[k]? = some ((tokensOf text)[k]?, text.length - j)) ∧
    ∀ k > (tokensOf text).length, ((ofText text).after k).next = (none, (ofText text).after k) := by
  refine ⟨length_calls _ n, ?_, ?_⟩
  · intro k hk
    obtain ⟨j, hj, hafter⟩ := after_reached text k
    obtain ⟨i, hi, hnext⟩ := next_reached hj
    refine ⟨i, hi, ?_⟩
    rw [getElem?_calls _ hk, hafter, hnext, hi.getElem?]
    simp [reached]
  · intro k hk
    obtain ⟨j, hj, hafter⟩ := after_reached text k
    rw [hafter]
    exact next_of_length_lt hj hk

/-- The second character completes two tokens, so the second call reads nothing; the third one reads the rest, which stays
open. -/
theorem calls_eager_pair :
    (ofText ['a', '(', 'b']).calls 4 = [(some (.identifier "a"), 1), (some .leftParen, 1), (none, 0), (none, 0)] ∧
    (∃ j, Fewest ['a', '(', 'b'] 2 j ∧ ((ofText ['a', '(', 'b']).calls 4)[1]? = some (some .leftParen, 3 - j)) ∧
    ((ofText ['a', '(', 'b']).after 3).next = (none, (ofText ['a', '(', 'b']).after 3) := by
  have htokens : tokensOf ['a', '(', 'b'] = [.identifier "a", .leftParen] := by decide
  have hcalls := calls_eager ['a', '(', 'b'] 4
  rw [htokens] at hcalls
  exact ⟨by decide, hcalls.2.1 1 (by decide), hcalls.2.2 3 (by decide)⟩

end TokenStream

end Parlance
