import Parlance.Proofs.Token.Line
import Parlance.Proofs.Token.Shape

/-!
# Blanks between tokens

Blanks may stand wherever a token ends: where nothing is open, and in front of a character that releases what is open.
There the first blank releases the same token; or an open literal or comment takes it in, and is released as the same token
by the character behind the blanks (`release_blank`). Either way the blanks add nothing but tokens of their own
(`lex_boundary`), whatever follows them, an operator at the end of the text included.
-/

namespace Parlance

/-- The tokens but for the blanks. -/
def withoutBlanks (tokens : List Token) : List Token := tokens.filter (· ≠ .blank)

theorem significant_withoutBlanks (tokens : List Token) : significant (withoutBlanks tokens) = significant tokens := by
  rw [significant, withoutBlanks, List.filter_filter]
  refine List.filter_congr fun t _ => ?_
  cases t <;> rfl

namespace Automaton

variable {a : Automaton} {b c : Char} {t : Token} {w r : List Char}

/-- In front of a character that releases the open token, a blank releases it as well or is taken in, and then that
character still releases the same token. -/
theorem release_blank (hb : isBlank b = true) (h : a.move c = .release t) :
    a.move b = .release t ∨ ∃ next, a.move b = .extend next ∧ move ⟨next, b :: a.recent⟩ c = .release t := by
  obtain ⟨q, recent⟩ := a
  have hclosed := State.closed_of_release h
  cases q with
  | idle => exact absurd h (start_ne_release c t)
  | word | operator | zero =>
    cases hclosed
    rcases isBlank_cases hb with rfl | rfl <;> exact .inl rfl
  | numeral radix =>
    cases hclosed
    cases radix <;> rcases isBlank_cases hb with rfl | rfl <;> exact .inl rfl
  | blank =>
    cases hclosed
    have hc : ¬isBlank c = true := by
      intro hc
      simp [move, State.move, hc] at h
    exact .inr ⟨.blank, by simp [move, State.move, hb], by simp [move, State.move, hc]⟩
  | _ =>
    -- only the end of the line releases a literal in quotes or a comment, and there it is released in every state
    have hline : isLineEnd c = true := by
      cases State.moves_of_move h with
      | release token reason => exact reason.resolve_left id
    cases hclosed
    rcases isBlank_cases hb with rfl | rfl <;> rcases eq_of_isLineEnd hline with rfl | rfl <;> exact .inr ⟨_, rfl, rfl⟩

/-- Blanks at the end of a token add only tokens of blanks. -/
theorem filter_boundary {p : Token → Bool} (hp : p .blank = false) (hw : IsBlanks w)
    (h : a = fresh ∨ ∃ t, a.move c = .release t) :
    (a.run (w ++ c :: r)).2.filter p = (a.run (c :: r)).2.filter p := by
  rcases h with rfl | ⟨t, h⟩
  · exact filter_blanks hp hw (List.cons_ne_nil c r)
  induction w generalizing a with
  | nil => rfl
  | cons b bs ih =>
    obtain ⟨hb, hbs⟩ := List.forall_mem_cons.mp hw
    rcases release_blank hb h with hrelease | ⟨next, hmore, hthen⟩
    · have hblanks := filter_blanks hp hw (List.cons_ne_nil c r)
      rw [List.cons_append] at hblanks ⊢
      rw [tokens_release hrelease, tokens_release h, List.filter_cons, List.filter_cons, hblanks]
    · rw [List.cons_append, tokens_extend hmore, ih hbs hthen, tokens_release hthen, tokens_release h]

end Automaton

/-- **Blanks between tokens.** Where nothing is open, or where the next character releases what is open, a run of blanks
changes no token but the blanks themselves, and nothing in the file that is parsed. -/
theorem lex_boundary {p w : List Char} {c : Char} (r : List Char) (hw : IsBlanks w)
    (h : (Automaton.fresh.run p).1.state = .idle ∨ ∃ t, (Automaton.fresh.run p).1.move c = .release t) :
    withoutBlanks (lex (p ++ w ++ c :: r)) = withoutBlanks (lex (p ++ c :: r)) ∧
      File.ofText (p ++ w ++ c :: r) = File.ofText (p ++ c :: r) := by
  have hlex : withoutBlanks (lex (p ++ w ++ c :: r)) = withoutBlanks (lex (p ++ c :: r)) := by
    have hboundary := Automaton.filter_boundary (p := (· ≠ Token.blank)) (r := r ++ [endMark]) rfl hw
      (h.imp_left Automaton.run_eq_fresh)
    simp only [withoutBlanks, lex, tokensOf, List.append_assoc, List.cons_append] at hboundary ⊢
    rw [Automaton.run_append _ p (w ++ _), Automaton.run_append _ p (c :: _), List.filter_append, List.filter_append,
      hboundary]
  refine ⟨hlex, File.ofTokens_congr ?_⟩
  rw [← significant_withoutBlanks, hlex, significant_withoutBlanks]

/-- In front of a line feed that cuts off an escape in a string, between the numeral `0x` without digits and a letter, and
between a name and an operator that ends the text. -/
theorem lex_boundary_operator :
    (Automaton.fresh.run "\"a\\".toList).1.move '\n' = .release (.literal .badString) ∧
    withoutBlanks (lex "\"a\\ \t\n+".toList) = withoutBlanks (lex "\"a\\\n+".toList) ∧
    withoutBlanks (lex "0x g".toList) = withoutBlanks (lex "0xg".toList) ∧
    withoutBlanks (lex "a\t+".toList) = withoutBlanks (lex "a+".toList) :=
  ⟨rfl, (lex_boundary (p := "\"a\\".toList) (w := [' ', '\t']) ['+'] (by decide) (.inr ⟨_, rfl⟩)).1,
    (lex_boundary (p := "0x".toList) (w := [' ']) [] (by decide) (.inr ⟨_, rfl⟩)).1,
    (lex_boundary (p := "a".toList) (w := ['\t']) [] (by decide) (.inr ⟨_, rfl⟩)).1⟩

end Parlance
