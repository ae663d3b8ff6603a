import Parlance.Grammar.File
import Parlance.Proofs.Token.LineFeed

/-!
# What a line says without its layout

Blanks in front of a line, and blanks and a comment behind it, do not change its significant tokens. Whatever the line
leaves open, `owed` is what a line feed would still make of it. A blank either is taken into the open token or closes it as
the line feed would, so that the tokens completed and those owed stay the same (`owed_blank`); so does the sign of a
comment (`owed_hash`), and from there on only a quote or the end of the line could close anything (`owed_inside`).
-/

namespace Parlance

theorem significant_append (us vs : List Token) : significant (us ++ vs) = significant us ++ significant vs :=
  List.filter_append ..

/-- Files are parsed from the tokens that the grammar sees. -/
theorem File.ofTokens_congr {us vs : List Token} (h : significant us = significant vs) : ofTokens us = ofTokens vs := by
  rw [ofTokens, ofTokens, Reading.ofTokens, Reading.ofTokens, h]

theorem isBlank_cases {c : Char} (h : isBlank c = true) : c = ' ' ∨ c = '\t' := by
  simpa [isBlank] using h

/-! ## Layout -/

/-- A run of blanks. -/
def IsBlanks (text : List Char) : Prop := ∀ c ∈ text, isBlank c = true

instance (text : List Char) : Decidable (IsBlanks text) := List.decidableBAll _ text

/-- A comment or nothing at all, with none of the characters `excluded` in it. -/
def IsNote (excluded : List Char) (text : List Char) : Prop :=
  text = [] ∨ ∃ note, text = '#' :: note ∧ ∀ c ∈ note, c ∉ excluded

/-- A run of blanks and perhaps a comment that may follow any line: no quote in it could close what the line left open. -/
def Trails (text : List Char) : Prop :=
  ∃ blanks note, text = blanks ++ note ∧ IsBlanks blanks ∧ IsNote ['\n', endMark, '\'', '"'] note

/-- A run of blanks and perhaps a comment on a line of their own. -/
def Fills (text : List Char) : Prop := ∃ blanks note, text = blanks ++ note ∧ IsBlanks blanks ∧ IsNote ['\n', endMark] note

/-- The significant tokens of a line and its line feed. -/
def lineTokens (line : List Char) : List Token := significant (tokensOf (line ++ ['\n']))

namespace Automaton

/-! ## What is owed -/

/-- The significant token that the next line feed closes. -/
def owed (a : Automaton) : List Token := significant a.closing.toList

theorem significant_lineFeed (a : Automaton) : significant (a.run ['\n']).2 = a.owed ++ [Token.newLine] := by
  rw [run_singleton, feed_lineFeed, significant_append]
  rfl

/-- The automaton in a state that only a quote or the end of the line leaves. -/
def Inside (a : Automaton) : Prop :=
  match a.state with
  | .comment | .charOpen | .charFilled | .charEscape | .charOverfull | .string | .stringEscape => True
  | _ => False

section Steps

variable {a : Automaton} {c : Char}

theorem owed_blank (h : isBlank c = true) : significant (a.feed c).2 ++ (a.feed c).1.owed = a.owed := by
  obtain ⟨q, recent⟩ := a
  rcases isBlank_cases h with rfl | rfl
  all_goals
    cases q with
    | word => exact List.append_nil _
    | operator => exact List.append_nil _
    | numeral r => cases r <;> rfl
    | _ => rfl

theorem owed_hash : significant (a.feed '#').2 ++ (a.feed '#').1.owed = a.owed ∧ (a.feed '#').1.Inside := by
  obtain ⟨q, recent⟩ := a
  cases q with
  | word => exact ⟨List.append_nil _, trivial⟩
  | operator => exact ⟨List.append_nil _, trivial⟩
  | numeral r => cases r <;> exact ⟨rfl, trivial⟩
  | _ => exact ⟨rfl, trivial⟩

theorem owed_inside (h : a.Inside) (hc : c ∉ ['\n', endMark, '\'', '"']) :
    significant (a.feed c).2 ++ (a.feed c).1.owed = a.owed ∧ (a.feed c).1.Inside := by
  obtain ⟨q, recent⟩ := a
  obtain ⟨hline, hend, hquote, hdouble⟩ : c ≠ '\n' ∧ c ≠ endMark ∧ c ≠ '\'' ∧ c ≠ '"' := by simpa using hc
  have hlineEnd : isLineEnd c = false := by simp [isLineEnd, isLineFeed, isEndMark, hline, hend]
  have hquote' : (c == '\'') = false := by simpa using hquote
  have hdouble' : (c == '"') = false := by simpa using hdouble
  cases q with
  | idle | word | operator | zero | numeral | blank => exact h.elim
  | comment =>
    simp only [feed, move, State.move, hlineEnd]
    exact ⟨rfl, trivial⟩
  | charOpen =>
    simp only [feed, move, State.move, hlineEnd, hquote']
    cases c == '\\' <;> exact ⟨rfl, trivial⟩
  | charFilled =>
    simp only [feed, move, State.move, hlineEnd, hquote']
    exact ⟨rfl, trivial⟩
  | charEscape =>
    simp only [feed, move, State.move, hlineEnd]
    cases resolveEscape c <;> exact ⟨rfl, trivial⟩
  | charOverfull =>
    simp only [feed, move, State.move, hlineEnd, hquote']
    exact ⟨rfl, trivial⟩
  | string =>
    simp only [feed, move, State.move, hlineEnd, hdouble']
    cases c == '\\' <;> exact ⟨rfl, trivial⟩
  | stringEscape =>
    simp only [feed, move, State.move, hlineEnd]
    cases resolveEscape c <;> exact ⟨rfl, trivial⟩

theorem owed_comment (h : a.state = .comment) (hc : c ∉ ['\n', endMark]) :
    significant (a.feed c).2 ++ (a.feed c).1.owed = a.owed ∧ (a.feed c).1.state = .comment := by
  obtain ⟨_, recent⟩ := a
  cases h
  obtain ⟨hline, hend⟩ : c ≠ '\n' ∧ c ≠ endMark := by simpa using hc
  have hlineEnd : isLineEnd c = false := by simp [isLineEnd, isLineFeed, isEndMark, hline, hend]
  simp only [feed, move, State.move, hlineEnd]
  exact ⟨rfl, rfl⟩

end Steps

/-! ## Runs -/

/-- Reading this text, the automaton completes what it owes or goes on owing it, and nothing else that is significant. -/
def Keeps (a : Automaton) (text : List Char) : Prop := significant (a.run text).2 ++ (a.run text).1.owed = a.owed

section Runs

variable {a : Automaton} {s t : List Char}

theorem Keeps.append (hs : a.Keeps s) (ht : (a.run s).1.Keeps t) : a.Keeps (s ++ t) := by
  unfold Keeps at *
  rw [run_append, significant_append, List.append_assoc, ht, hs]

theorem Keeps.cons {c : Char} (hc : significant (a.feed c).2 ++ (a.feed c).1.owed = a.owed) (ht : (a.feed c).1.Keeps t) :
    a.Keeps (c :: t) := by
  refine Keeps.append (s := [c]) ?_ ht
  rw [Keeps, run_singleton]
  exact hc

theorem Keeps.lineFeed (h : a.Keeps s) : significant (a.run (s ++ ['\n'])).2 = a.owed ++ [Token.newLine] := by
  rw [run_append, significant_append, significant_lineFeed, ← List.append_assoc, h]

theorem keeps_blanks (a : Automaton) (hs : IsBlanks s) : a.Keeps s := by
  induction s generalizing a with
  | nil => rfl
  | cons c cs ih =>
    obtain ⟨hc, hcs⟩ := List.forall_mem_cons.mp hs
    exact .cons (owed_blank hc) (ih _ hcs)

theorem keeps_inside (h : a.Inside) (hs : ∀ c ∈ s, c ∉ ['\n', endMark, '\'', '"']) : a.Keeps s := by
  induction s generalizing a with
  | nil => rfl
  | cons c cs ih =>
    obtain ⟨hc, hcs⟩ := List.forall_mem_cons.mp hs
    obtain ⟨hstep, hin⟩ := owed_inside h hc
    exact .cons hstep (ih hin hcs)

theorem keeps_comment (h : a.state = .comment) (hs : ∀ c ∈ s, c ∉ ['\n', endMark]) : a.Keeps s := by
  induction s generalizing a with
  | nil => rfl
  | cons c cs ih =>
    obtain ⟨hc, hcs⟩ := List.forall_mem_cons.mp hs
    obtain ⟨hstep, hin⟩ := owed_comment h hc
    exact .cons hstep (ih hin hcs)

theorem keeps_trailing (a : Automaton) (hs : Trails s) : a.Keeps s := by
  obtain ⟨blanks, note, rfl, hblanks, hnote⟩ := hs
  refine (keeps_blanks a hblanks).append ?_
  rcases hnote with rfl | ⟨note, rfl, hnote⟩
  · rfl
  · exact .cons owed_hash.1 (keeps_inside owed_hash.2 hnote)

/-- Blanks leave nothing but blanks open. -/
theorem state_blanks (ha : a.state = .idle ∨ a.state = .blank) (hs : IsBlanks s) :
    (a.run s).1.state = .idle ∨ (a.run s).1.state = .blank := by
  induction s generalizing a with
  | nil => exact ha
  | cons c cs ih =>
    obtain ⟨hc, hcs⟩ := List.forall_mem_cons.mp hs
    refine ih (.inr ?_) hcs
    obtain ⟨q, recent⟩ := a
    rcases isBlank_cases hc with rfl | rfl
    all_goals rcases ha with ha | ha <;> cases ha <;> rfl

theorem keeps_filling (hs : Fills s) : fresh.Keeps s := by
  obtain ⟨blanks, note, rfl, hblanks, hnote⟩ := hs
  refine (keeps_blanks fresh hblanks).append ?_
  rcases hnote with rfl | ⟨note, rfl, hnote⟩
  · rfl
  · refine .cons owed_hash.1 (keeps_comment ?_ hnote)
    have hstate := state_blanks (a := fresh) (.inl rfl) hblanks
    generalize (fresh.run blanks).1 = a at hstate
    obtain ⟨q, recent⟩ := a
    rcases hstate with h | h <;> cases h <;> rfl

/-- Open blanks are closed as a token of their own. -/
theorem filter_blank {p : Token → Bool} (hp : p .blank = false) (recent : List Char) (ht : t ≠ []) :
    (run ⟨.blank, recent⟩ t).2.filter p = (fresh.run t).2.filter p := by
  induction t generalizing recent with
  | nil => exact absurd rfl ht
  | cons c cs ih =>
    cases hc : isBlank c with
    | true =>
      have hmore : move ⟨.blank, recent⟩ c = .extend .blank := by simp [move, State.move, hc]
      have hstart : fresh.move c = .extend .blank := by rcases isBlank_cases hc with rfl | rfl <;> rfl
      rw [tokens_extend hmore, tokens_extend hstart]
      cases cs with
      | nil => rfl
      | cons d ds => rw [ih _ (List.cons_ne_nil d ds), ih _ (List.cons_ne_nil d ds)]
    | false =>
      have hstop : move ⟨.blank, recent⟩ c = .release .blank := by simp [move, State.move, hc]
      rw [tokens_release hstop, List.filter_cons_of_neg (by simp [hp])]

theorem filter_blanks {p : Token → Bool} (hp : p .blank = false) (hs : IsBlanks s) (ht : t ≠ []) :
    (fresh.run (s ++ t)).2.filter p = (fresh.run t).2.filter p := by
  induction s with
  | nil => rfl
  | cons c cs ih =>
    obtain ⟨hc, hcs⟩ := List.forall_mem_cons.mp hs
    have hstart : fresh.move c = .extend .blank := by rcases isBlank_cases hc with rfl | rfl <;> rfl
    rw [List.cons_append, tokens_extend hstart, filter_blank hp _ (List.append_ne_nil_of_right_ne_nil cs ht), ih hcs]

theorem significant_blanks (hs : IsBlanks s) (ht : t ≠ []) :
    significant (fresh.run (s ++ t)).2 = significant (fresh.run t).2 :=
  filter_blanks rfl hs ht

end Runs

end Automaton

theorem lineTokens_eq (line : List Char) :
    lineTokens line = significant (tokensOf line) ++ ((Automaton.fresh.run line).1.owed ++ [Token.newLine]) := by
  rw [lineTokens, tokensOf, Automaton.run_append, significant_append, Automaton.significant_lineFeed]
  rfl

/-- **Lines without their layout.** Blanks in front of a line, and blanks and a comment behind it, leave its tokens as they
are. -/
theorem lineTokens_layout {front back : List Char} (hfront : IsBlanks front) (hback : Trails back) (line : List Char) :
    lineTokens (front ++ line ++ back) = lineTokens line := by
  have hassoc : front ++ line ++ back ++ ['\n'] = front ++ (line ++ (back ++ ['\n'])) := by simp
  rw [lineTokens, hassoc, tokensOf, Automaton.significant_blanks hfront (by simp), Automaton.run_append, significant_append,
    (Automaton.keeps_trailing _ hback).lineFeed, lineTokens_eq]
  rfl

/-- A line that holds only layout says nothing. -/
theorem lineTokens_filling {line : List Char} (h : Fills line) : lineTokens line = [.newLine] :=
  (Automaton.keeps_filling h).lineFeed

/-! ## The end of the text -/

section End

variable {s : List Char}

theorem lex_eq_feed (s : List Char) : lex s = tokensOf s ++ ((Automaton.fresh.run s).1.feed endMark).2 := by
  rw [lex, tokensOf, Automaton.run_append, Automaton.run_singleton]
  rfl

/-- The end mark closes what the last line leaves open. -/
theorem lex_of_ne_operator (h : (Automaton.fresh.run s).1.state ≠ .operator) :
    lex s = tokensOf s ++ (Automaton.fresh.run s).1.closing.toList ++ [Token.endOfInput] := by
  rw [lex_eq_feed, Automaton.feed_endMark h, List.append_assoc]

/-- A run of operator symbols stays open, and the end token is missing with it. -/
theorem lex_of_operator (h : (Automaton.fresh.run s).1.state = .operator) : lex s = tokensOf s := by
  rw [lex_eq_feed]
  generalize (Automaton.fresh.run s).1 = a at h
  obtain ⟨_, recent⟩ := a
  cases h
  exact List.append_nil _

theorem significant_lex_of_ne (h : (Automaton.fresh.run s).1.state ≠ .operator) :
    significant (lex s) = significant (tokensOf s) ++ (Automaton.fresh.run s).1.owed ++ [Token.endOfInput] := by
  rw [lex_of_ne_operator h, significant_append, significant_append]
  rfl

theorem significant_lex_of_operator (h : (Automaton.fresh.run s).1.state = .operator) :
    significant (lex s) = significant (tokensOf s) ∧ ∃ o, (Automaton.fresh.run s).1.owed = [.operator o] := by
  rw [lex_of_operator h]
  generalize (Automaton.fresh.run s).1 = a at h
  obtain ⟨_, recent⟩ := a
  cases h
  exact ⟨rfl, _, rfl⟩

theorem significant_lex_lineFeed (s : List Char) : significant (lex (s ++ ['\n'])) = lineTokens s ++ [Token.endOfInput] := by
  rw [lex_lineFeed s [], significant_append]
  rfl

theorem significant_lex_lines (lines : List (List Char)) :
    significant (lex (lines.flatMap (· ++ ['\n']))) = lines.flatMap lineTokens ++ [Token.endOfInput] := by
  induction lines with
  | nil => rfl
  | cons l ls ih =>
    rw [List.flatMap_cons, List.flatMap_cons, lex_append_of_fresh (Automaton.run_lineFeed _ l), significant_append, ih,
      List.append_assoc]
    rfl

end End

end Parlance
