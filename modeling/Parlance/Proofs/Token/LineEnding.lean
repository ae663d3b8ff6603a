import Parlance.Proofs.Token.Line
import Parlance.Proofs.Token.Shape

/-!
# How lines and texts end

* A carriage return in front of a line feed leaves no trace, whatever is open: it either closes what the line feed would
  close, or is one more character of an open literal or comment that the line feed closes all the same
  (`run_carriageReturn_lineFeed`). So a text may end its lines with both (`lex_withCarriageReturns`).
* The end mark makes one token of what is open and then the end token (`endMark_flushes`). Only a run of operator symbols
  takes it in instead, so that the operator and the end token are both missing. Without end marks in the text, that is so
  where the last character is a symbol outside quotes and comments (`EndsInOperator`).
-/

namespace Parlance

/-- The text with a carriage return in front of each line feed. -/
def withCarriageReturns (text : List Char) : List Char := text.flatMap fun c => if c = '\n' then ['\r', '\n'] else [c]

theorem State.closed_eq_none_iff {q : State} {text : List Char} : q.closed text = none ↔ q = .idle := by
  cases q <;> simp [closed]

/-- The last character is an operator symbol, and in front of it no literal in quotes and no comment is open. -/
def EndsInOperator (text : List Char) : Prop :=
  ∃ front c, text = front ++ [c] ∧ isOperatorSymbol c = true ∧ ¬(Automaton.fresh.run front).1.Inside

namespace Automaton

/-! ## Carriage returns -/

/-- What a carriage return closes, and what it leaves for the line feed to close, is what the line feed closes alone. -/
theorem closing_carriageReturn (a : Automaton) : (a.feed '\r').2 ++ (a.feed '\r').1.closing.toList = a.closing.toList := by
  obtain ⟨q, recent⟩ := a
  cases q with
  | numeral r => cases r <;> rfl
  | _ => rfl

theorem run_carriageReturn_lineFeed (a : Automaton) : a.run ['\r', '\n'] = a.feed '\n' := by
  have hbehind : a.run ['\r', '\n'] = (fresh, (a.feed '\r').2 ++ ((a.feed '\r').1.closing.toList ++ [Token.newLine])) := by
    rw [run, run_singleton, feed_lineFeed]
  rw [hbehind, feed_lineFeed, ← List.append_assoc, closing_carriageReturn]

theorem run_withCarriageReturns (a : Automaton) (text : List Char) : a.run (withCarriageReturns text) = a.run text := by
  induction text generalizing a with
  | nil => rfl
  | cons c cs ih =>
    have hfirst : a.run (if c = '\n' then ['\r', '\n'] else [c]) = a.feed c := by
      split
      · rename_i hc
        rw [hc]
        exact run_carriageReturn_lineFeed a
      · exact run_singleton a c
    rw [withCarriageReturns, List.flatMap_cons, run_append, hfirst, ← withCarriageReturns, ih]
    rfl

/-! ## The end token -/

section Moves

variable {a : Automaton} {q : State} {recent : List Char} {c v : Char}

theorem start_finish_endOfInput (h : State.start c = .finish .endOfInput) : c = endMark := by
  cases State.begins_of_start h with
  | endOfInput mark => exact mark

theorem move_ne_finish_endOfInput (hc : c ≠ endMark) : q.move recent c ≠ .finish .endOfInput := by
  intro h
  cases State.moves_of_move h with
  | start first => exact hc (start_finish_endOfInput h)

theorem closed_ne_endOfInput {text : List Char} : q.closed text ≠ some .endOfInput := by
  intro h
  cases q with
  | word =>
    simp only [State.closed, Token.ofWord] at h
    split at h <;> cases h
  | _ => cases h

theorem endOfInput_notMem_run {text : List Char} (h : endMark ∉ text) (a : Automaton) : .endOfInput ∉ (a.run text).2 := by
  intro hm
  obtain ⟨front, c, back, rfl, hfeed⟩ := mem_run hm
  have hc : c ≠ endMark := by
    rintro rfl
    exact h (List.mem_append_right front List.mem_cons_self)
  rcases mem_feed hfeed with hfinish | hrelease | hstart
  · exact move_ne_finish_endOfInput hc hfinish
  · exact closed_ne_endOfInput (State.closed_of_release hrelease)
  · exact hc (start_finish_endOfInput hstart)

theorem closing_eq (a : Automaton) : a.closing = a.state.closed a.text := by
  obtain ⟨q, recent⟩ := a
  cases q with
  | numeral r => cases r <;> rfl
  | _ => rfl

/-! ## Where an operator is open -/

theorem mem_operatorSymbols (h : isOperatorSymbol c = true) :
    c = '+' ∨ c = '-' ∨ c = '*' ∨ c = '/' ∨ c = '%' ∨ c = '=' ∨ c = '>' ∨ c = '<' := by
  simpa [isOperatorSymbol, operatorSymbols] using h

/-- A symbol begins or extends an operator, except inside a literal in quotes or a comment, which goes on. -/
theorem state_feed_symbol (hc : isOperatorSymbol c = true) : (a.feed c).1.state = .operator ↔ ¬a.Inside := by
  constructor
  · intro h hinside
    have hplain : c ∉ ['\n', endMark, '\'', '"'] := by
      rcases mem_operatorSymbols hc with rfl | rfl | rfl | rfl | rfl | rfl | rfl | rfl <;> decide
    have hgoes := (owed_inside hinside hplain).2
    rw [Inside, h] at hgoes
    exact hgoes
  · intro hopen
    obtain ⟨q, recent⟩ := a
    cases q with
    | idle | word | operator | zero | blank =>
      rcases mem_operatorSymbols hc with rfl | rfl | rfl | rfl | rfl | rfl | rfl | rfl <;> rfl
    | numeral r =>
      cases r <;> rcases mem_operatorSymbols hc with rfl | rfl | rfl | rfl | rfl | rfl | rfl | rfl <;> rfl
    | _ => exact absurd trivial hopen

/-- Without end marks, an operator is open at the end of just those texts that end in one. -/
theorem state_run_operator {text : List Char} (h : endMark ∉ text) :
    (fresh.run text).1.state = .operator ↔ EndsInOperator text := by
  rcases List.eq_nil_or_concat text with rfl | ⟨front, c, hconcat⟩
  · constructor
    · nofun
    · rintro ⟨front, c, hnil, -⟩
      simp at hnil
  rw [List.concat_eq_append] at hconcat
  subst hconcat
  have hc : c ≠ endMark := by
    rintro rfl
    exact h (List.mem_append_right front List.mem_cons_self)
  rw [run_append, run_singleton]
  constructor
  · intro hstate
    have hsymbol : isOperatorSymbol c = true := by
      rcases feed_operator (opens_run_from .idle front) hstate with ⟨-, hsymbol⟩ | ⟨-, -, hsymbol⟩
      · exact hsymbol
      · exact hsymbol.resolve_right hc
    exact ⟨front, c, rfl, hsymbol, (state_feed_symbol hsymbol).mp hstate⟩
  · rintro ⟨front', d, heq, hsymbol, hopen⟩
    obtain ⟨rfl, hd⟩ := List.append_inj' heq rfl
    cases hd
    exact (state_feed_symbol hsymbol).mpr hopen

end Moves

end Automaton

/-! ## Whole texts -/

/-- **Carriage returns in front of line feeds** change neither the tokens of a text nor the file that is parsed from it. -/
theorem lex_withCarriageReturns (s : List Char) :
    lex (withCarriageReturns s) = lex s ∧ File.ofText (withCarriageReturns s) = File.ofText s := by
  have hlex : lex (withCarriageReturns s) = lex s := by
    have hend : withCarriageReturns s ++ [endMark] = withCarriageReturns (s ++ [endMark]) := by
      rw [withCarriageReturns, withCarriageReturns, List.flatMap_append]
      rfl
    rw [lex, tokensOf, hend, Automaton.run_withCarriageReturns]
    rfl
  exact ⟨hlex, by rw [File.ofText, hlex, ← File.ofText]⟩

/-- A string with a backslash where its line ends, and character literals that end behind their opening quotes. -/
example : withCarriageReturns "\"a\\\n'\n'".toList = "\"a\\\r\n'\r\n'".toList ∧
    lex "\"a\\\r\n'\r\n'".toList =
      [.literal .badString, .newLine, .literal .badChar, .newLine, .literal .badChar, .endOfInput] := by
  decide +kernel

/-- **The end mark flushes.** Where no operator is open at the end of a text, what is open makes one token, the end token
follows, and nothing is open any more. Where an operator is open, no token comes of it, and the end token is missing too.
A text without end marks has the end token once and last, or, if it ends in an operator, not at all. -/
theorem endMark_flushes (s : List Char) {a : Automaton} (ha : (Automaton.fresh.run s).1 = a) :
    (a.state ≠ .operator →
      lex s = tokensOf s ++ (a.state.closed a.text).toList ++ [Token.endOfInput] ∧
      (Automaton.fresh.run (s ++ [endMark])).1 = .fresh) ∧
    (a.state.closed a.text = none ↔ a.state = .idle) ∧
    (a.state = .operator → lex s = tokensOf s) ∧
    (endMark ∉ s →
      .endOfInput ∉ tokensOf s ∧
      (a.state = .operator ↔ EndsInOperator s) ∧
      (EndsInOperator s → .endOfInput ∉ lex s) ∧
      (¬EndsInOperator s → ∃ ts, .endOfInput ∉ ts ∧ lex s = ts ++ [Token.endOfInput])) := by
  subst ha
  rw [← Automaton.closing_eq]
  refine ⟨fun h => ⟨lex_of_ne_operator h, ?_⟩, ?_, lex_of_operator, fun hs => ?_⟩
  · rw [Automaton.run_append, Automaton.run_singleton, Automaton.feed_endMark h]
  · rw [Automaton.closing_eq]
    exact State.closed_eq_none_iff
  have hraw : .endOfInput ∉ tokensOf s := Automaton.endOfInput_notMem_run hs _
  have hstate := Automaton.state_run_operator hs
  refine ⟨hraw, hstate, fun hends => ?_, fun hends => ⟨_, ?_, lex_of_ne_operator (fun h => hends (hstate.mp h))⟩⟩
  · rwa [lex_of_operator (hstate.mpr hends)]
  · intro hm
    rcases List.mem_append.mp hm with hm | hm
    · exact hraw hm
    · rw [Option.mem_toList, Automaton.closing_eq] at hm
      exact Automaton.closed_ne_endOfInput hm

/-- A symbol in an open string, behind an operator that holds an end mark; and a symbol behind a word. -/
theorem endMark_flushes_string :
    lex "+\x00\"+".toList = [.operator "+\x00"] ++ [.literal .badString] ++ [Token.endOfInput] ∧
    EndsInOperator "a+".toList ∧ .endOfInput ∉ lex "a+".toList := by
  have hword : EndsInOperator "a+".toList := ⟨['a'], '+', rfl, rfl, nofun⟩
  exact ⟨((endMark_flushes "+\x00\"+".toList rfl).1 nofun).1, hword,
    ((endMark_flushes "a+".toList rfl).2.2.2 (by decide)).2.2.1 hword⟩

end Parlance
