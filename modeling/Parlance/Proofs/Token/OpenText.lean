import Parlance.Proofs.Token.Proper

/-!
# What is open in each state

The state of the automaton says what kind of token is open, and with it what characters are: `Opens` has one rule for each
state. Every run keeps to these rules (`opens_run`), end marks included. They are what makes the automaton safe: it cuts
the opening quote off a string, takes the one character out of a character literal and replaces the last character by a
resolved escape without looking whether there is anything of the kind.

An escape brings quotes and line feeds into an open literal, but never an end mark, so nothing more than that is said of
the body of a string.
-/

namespace Parlance

/-- A character of the class `first`, and behind it characters of the class `part`. -/
def IsRun (first part : Char → Bool) : List Char → Prop
  | [] => False
  | c :: cs => first c = true ∧ ∀ d ∈ cs, part d = true

theorem IsRun.concat {first part : Char → Bool} {text : List Char} {c : Char} (h : IsRun first part text)
    (hc : part c = true) : IsRun first part (text ++ [c]) := by
  cases text with
  | nil => exact h.elim
  | cons d ds =>
    obtain ⟨hd, hds⟩ := h
    exact ⟨hd, List.forall_mem_append.mpr ⟨hds, List.forall_mem_singleton.mpr hc⟩⟩

namespace State

/-- The characters that are open in a state, in the order of the text. -/
inductive Opens : State → List Char → Prop where
  | idle : Opens .idle []
  | word {text : List Char} (run : IsRun isWordStart isWordPart text) : Opens .word text
  /-- The end mark extends an operator. -/
  | operator {text : List Char} (run : IsRun isOperatorSymbol (fun c => isOperatorSymbol c || isEndMark c) text) :
      Opens .operator text
  | zero : Opens .zero ['0']
  | binary {m : Char} {ds : List Char} (mark : isBinaryMark m = true)
      (digits : ∀ d ∈ ds, isNumeralPart .binary d = true) : Opens (.numeral .binary) ('0' :: m :: ds)
  | decimal {text : List Char} (run : IsRun isDigit (isNumeralPart .decimal) text) : Opens (.numeral .decimal) text
  | hexadecimal {m : Char} {ds : List Char} (mark : isHexadecimalMark m = true)
      (digits : ∀ d ∈ ds, isNumeralPart .hexadecimal d = true) : Opens (.numeral .hexadecimal) ('0' :: m :: ds)
  | charOpen : Opens .charOpen ['\'']
  | charFilled {v : Char} (proper : v ≠ endMark) : Opens .charFilled ['\'', v]
  | charEscape : Opens .charEscape ['\'', '\\']
  | charOverfull {v w : Char} {cs : List Char} : Opens .charOverfull ('\'' :: v :: w :: cs)
  | string {body : List Char} (proper : endMark ∉ body) : Opens .string ('"' :: body)
  | stringEscape {body : List Char} (proper : endMark ∉ body) : Opens .stringEscape ('"' :: (body ++ ['\\']))
  | comment {body : List Char} (line : ∀ d ∈ body, isLineEnd d = false) : Opens .comment ('#' :: body)
  | blank {text : List Char} (run : IsRun isBlank isBlank text) : Opens .blank text

/-! ## One move -/

section Move

variable {q next : State} {text : List Char} {c v : Char}

theorem ne_endMark_of_not_isLineEnd (h : isLineEnd c = false) : c ≠ endMark := by
  rintro rfl
  cases h

/-- With no token open, the first character of a token opens it. -/
theorem opens_start (h : start c = .extend next) : Opens next [c] := by
  have alone : ∀ {first part : Char → Bool}, first c = true → IsRun first part [c] := fun hc => ⟨hc, List.forall_mem_nil _⟩
  cases begins_of_start h with
  | word start => exact .word (alone start)
  | zero digit =>
    rw [digit]
    exact .zero
  | numeral digit => exact .decimal (alone digit)
  | operator symbol => exact .operator (alone symbol)
  | blank part => exact .blank (alone part)
  | comment sign =>
    rw [sign]
    exact .comment (List.forall_mem_nil _)
  | char quote =>
    rw [quote]
    exact .charOpen
  | string quote =>
    rw [quote]
    exact .string List.not_mem_nil

theorem endMark_notMem_concat {body : List Char} (h : endMark ∉ body) (hc : c ≠ endMark) : endMark ∉ body ++ [c] := by
  simp [h, hc.symm]

/-- A character that extends the open token. -/
theorem Opens.extend (h : Opens q text) (hm : q.move text.reverse c = .extend next) : Opens next (text ++ [c]) := by
  cases moves_of_move hm with
  | start first =>
    cases h
    exact opens_start hm
  | extend more =>
    cases more with
    | word part =>
      cases h with
      | word run => exact .word (run.concat part)
    | operator part =>
      cases h with
      | operator run => exact .operator (run.concat part)
    | binary mark =>
      cases h
      exact .binary mark (List.forall_mem_nil _)
    | hexadecimal mark =>
      cases h
      exact .hexadecimal mark (List.forall_mem_nil _)
    | decimal part =>
      cases h
      exact .decimal ⟨rfl, List.forall_mem_singleton.mpr part⟩
    | numeral part =>
      cases h with
      | binary mark digits =>
        exact .binary mark (List.forall_mem_append.mpr ⟨digits, List.forall_mem_singleton.mpr part⟩)
      | decimal run => exact .decimal (run.concat part)
      | hexadecimal mark digits =>
        exact .hexadecimal mark (List.forall_mem_append.mpr ⟨digits, List.forall_mem_singleton.mpr part⟩)
    | charEscape slash =>
      cases h
      rw [slash]
      exact .charEscape
    | charFilled line =>
      cases h
      exact .charFilled (ne_endMark_of_not_isLineEnd line)
    | overfilled line | overescaped line | overfull line =>
      cases h
      exact .charOverfull
    | stringEscape slash =>
      cases h with
      | string proper =>
        rw [slash]
        exact .stringEscape proper
    | string line =>
      cases h with
      | string proper => exact .string (endMark_notMem_concat proper (ne_endMark_of_not_isLineEnd line))
    | stringKept line =>
      cases h with
      | stringEscape proper =>
        have hbody := endMark_notMem_concat proper (show '\\' ≠ endMark by decide)
        exact .string (endMark_notMem_concat hbody (ne_endMark_of_not_isLineEnd line))
    | comment line =>
      cases h with
      | comment body =>
        exact .comment (List.forall_mem_append.mpr ⟨body, List.forall_mem_singleton.mpr line⟩)
    | blank part =>
      cases h with
      | blank run => exact .blank (run.concat part)

theorem start_ne_resolve : start c ≠ .resolve v next := by
  intro h
  cases begins_of_start h

/-- A character that resolves an escape takes the place of the backslash, which is the last character of the open token. -/
theorem Opens.resolve (h : Opens q text) (hm : q.move text.reverse c = .resolve v next) :
    ∃ front, text = front ++ ['\\'] ∧ Opens next (front ++ [v]) := by
  cases moves_of_move hm with
  | start first => cases first
  | resolveChar escape =>
    cases h
    exact ⟨['\''], rfl, .charFilled (resolveEscape_ne_endMark escape)⟩
  | resolveString escape =>
    cases h with
    | @stringEscape body proper =>
      exact ⟨'"' :: body, rfl, .string (endMark_notMem_concat proper (resolveEscape_ne_endMark escape))⟩

end Move

end State

/-! ## Runs -/

namespace Automaton

section Run

variable {a : Automaton} {c v : Char} {next : State}

theorem move_text (a : Automaton) (c : Char) : a.state.move a.text.reverse c = a.move c := by
  rw [text, List.reverse_reverse, move]

/-- A resolved escape replaces the last open character, a backslash. -/
theorem text_resolve (h : a.state.Opens a.text) (hm : a.move c = .resolve v next) :
    ∃ front, a.text = front ++ ['\\'] ∧ (a.feed c).1.text = front ++ [v] ∧ next.Opens (front ++ [v]) := by
  obtain ⟨front, htext, hnext⟩ := h.resolve ((move_text a c).trans hm)
  have hrecent : a.recent = '\\' :: front.reverse := by
    rw [← List.reverse_reverse a.recent, ← text, htext, List.reverse_concat]
  refine ⟨front, htext, ?_, hnext⟩
  rw [feed_resolve hm, hrecent, text, List.tail_cons, List.reverse_cons, List.reverse_reverse]

/-- One character, apart from a second reading. -/
theorem opens_apply (h : a.state.Opens a.text) (c : Char) :
    (a.apply c (a.move c)).1.state.Opens (a.apply c (a.move c)).1.text := by
  cases hm : a.move c with
  | extend next =>
    have hnext := h.extend ((move_text a c).trans hm)
    simpa only [apply, text, List.reverse_cons] using hnext
  | resolve v next =>
    obtain ⟨front, -, htext, hnext⟩ := text_resolve h hm
    rw [feed_resolve hm] at htext
    exact htext ▸ hnext
  | finish t => exact .idle
  | release t => exact .idle
  | skip => exact h

/-- One character. -/
theorem opens_feed (h : a.state.Opens a.text) (c : Char) : (a.feed c).1.state.Opens (a.feed c).1.text := by
  have happly := opens_apply h c
  cases hm : a.move c with
  | release t =>
    rw [feed_release hm, feed_fresh]
    exact opens_apply (a := fresh) .idle c
  | _ =>
    rw [hm] at happly
    simpa only [feed, hm] using happly

theorem opens_run_from (h : a.state.Opens a.text) (text : List Char) : (a.run text).1.state.Opens (a.run text).1.text := by
  induction text generalizing a with
  | nil => exact h
  | cons c cs ih => exact ih (opens_feed h c)

/-- With no token open, the automaton is fresh. -/
theorem run_eq_fresh {text : List Char} (h : (fresh.run text).1.state = .idle) : (fresh.run text).1 = fresh := by
  have hopens := opens_run_from (a := fresh) .idle text
  generalize (fresh.run text).1 = a at h hopens
  obtain ⟨q, recent⟩ := a
  cases h
  generalize htext : Automaton.text ⟨.idle, recent⟩ = text at hopens
  cases hopens
  have hrecent : recent = [] := List.reverse_eq_nil_iff.mp htext
  rw [fresh, hrecent]

/-- An open string starts with its quote, of one byte, and the rest is its value. -/
theorem text_string (h : a.state.Opens a.text) (hq : a.state = .string) :
    ∃ body, a.text = '"' :: body ∧ String.Pos.Raw.IsValid (.ofList a.text) ⟨1⟩ ∧
      a.move '"' = .finish (.literal (.string (.ofList body))) := by
  obtain ⟨q, recent⟩ := a
  cases hq
  generalize htext : text ⟨.string, recent⟩ = text at h
  cases h with
  | @string body proper =>
    have hsplit : String.ofList (['"'] ++ body) = .ofList ['"'] ++ .ofList body := String.ofList_append
    refine ⟨body, rfl, String.Pos.Raw.isValid_iff_exists_append.mpr ⟨_, _, hsplit, rfl⟩, ?_⟩
    rw [← move_text, htext]
    simp [State.move, isLineEnd, isLineFeed, isEndMark, endMark]

/-- A filled character literal holds its quote and one character. -/
theorem text_charFilled (h : a.state.Opens a.text) (hq : a.state = .charFilled) :
    ∃ v, a.text = ['\'', v] ∧ a.move '\'' = .finish (.literal (.char v)) := by
  obtain ⟨q, recent⟩ := a
  cases hq
  generalize htext : text ⟨.charFilled, recent⟩ = text at h
  cases h with
  | @charFilled v proper =>
    refine ⟨v, rfl, ?_⟩
    rw [← move_text, htext]
    rfl

end Run

/-- **The state tells what is open**, after any text. So the value of a string is cut off behind its quote, at a boundary of
characters; a filled character literal has its character; a resolved escape replaces the backslash and nothing else; and a
released character is read once more with nothing to release, so no character is read a third time. -/
theorem opens_run (text : List Char) {a : Automaton} (ha : (fresh.run text).1 = a) :
    a.state.Opens a.text ∧
    (a.state = .string → ∃ body, a.text = '"' :: body ∧ String.Pos.Raw.IsValid (.ofList a.text) ⟨1⟩ ∧
      a.move '"' = .finish (.literal (.string (.ofList body)))) ∧
    (a.state = .charFilled → ∃ v, a.text = ['\'', v] ∧ a.move '\'' = .finish (.literal (.char v))) ∧
    (∀ c v next, a.move c = .resolve v next →
      ∃ front, a.text = front ++ ['\\'] ∧ (a.feed c).1.text = front ++ [v]) ∧
    ∀ c t, a.move c = .release t →
      (∀ u, fresh.move c ≠ .release u) ∧ a.feed c = ((fresh.feed c).1, t :: (fresh.feed c).2) := by
  have h : a.state.Opens a.text := ha ▸ opens_run_from .idle text
  refine ⟨h, text_string h, text_charFilled h, fun c v next hm => ?_, fun c t hm => ?_⟩
  · obtain ⟨front, htext, hfeed, -⟩ := text_resolve h hm
    exact ⟨front, htext, hfeed⟩
  · exact ⟨start_ne_release c, feed_release hm⟩

/-- An escape of a quote in a string, the string that it leaves open, a character, and an operator with an end mark in it. -/
theorem opens_run_escape :
    (∃ front, ['"', 'a', '\\'] = front ++ ['\\'] ∧
      (feed ⟨.stringEscape, ['\\', 'a', '"']⟩ '"').1.text = front ++ ['"']) ∧
    (∃ body, ['"', 'a', '"'] = '"' :: body ∧ String.Pos.Raw.IsValid (.ofList ['"', 'a', '"']) ⟨1⟩ ∧
      move ⟨.string, ['"', 'a', '"']⟩ '"' = .finish (.literal (.string (.ofList body)))) ∧
    (∃ v, ['\'', '\n'] = ['\'', v] ∧ move ⟨.charFilled, ['\n', '\'']⟩ '\'' = .finish (.literal (.char v))) ∧
    feed ⟨.operator, ['\x00', '+']⟩ '\n' = (fresh, [.operator "+\x00", .newLine]) :=
  ⟨(opens_run ['"', 'a', '\\'] rfl).2.2.2.1 '"' '"' .string rfl,
    (opens_run ['"', 'a', '\\', '"'] rfl).2.1 rfl,
    (opens_run ['\'', '\\', 'n'] rfl).2.2.1 rfl,
    ((opens_run ['+', '\x00'] rfl).2.2.2.2 '\n' (.operator "+\x00") rfl).2⟩

end Automaton

end Parlance
