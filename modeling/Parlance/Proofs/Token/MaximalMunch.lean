import Parlance.Proofs.Token.Move
import Parlance.Proofs.Token.Scanner

/-!
# The automaton finds the longest matches

The automaton reads one character at a time and never looks ahead, and yet its tokens are those of the scanner. A **run**
of characters of one class keeps it in one state until the first character outside the class releases the token; quoted
literals are followed through their escapes; and the end mark closes what is still open.

* `lex_munch`: the automaton's tokens are the one at the front, and those of the text behind it,
* `lex_eq_scan`: so they are the scanner's, over the whole text.
-/

namespace Parlance

namespace Automaton

section Step

variable {a : Automaton} {c : Char} {cs : List Char} {t : Token}

/-! ## One character -/

theorem feed_extend {next : State} (h : a.move c = .extend next) : a.feed c = (⟨next, c :: a.recent⟩, []) := by
  simp only [feed, h, apply]

theorem feed_resolve {v : Char} {next : State} (h : a.move c = .resolve v next) :
    a.feed c = (⟨next, v :: a.recent.tail⟩, []) := by
  simp only [feed, h, apply]

theorem feed_finish (h : a.move c = .finish t) : a.feed c = (fresh, [t]) := by
  simp only [feed, h, apply]

theorem feed_skip (h : a.move c = .skip) : a.feed c = (a, []) := by
  simp only [feed, h, apply]

/-- With no token open there is none to release. -/
theorem start_ne_release (c : Char) (t : Token) : State.start c ≠ .release t := by
  intro h
  cases State.begins_of_start h

theorem feed_fresh (c : Char) : fresh.feed c = fresh.apply c (State.start c) := by
  cases h : State.start c with
  | release t => exact absurd h (start_ne_release c t)
  | _ => simp only [feed, move, fresh, State.move, h]

/-- A released character is read as if no token had been open. -/
theorem feed_release (h : a.move c = .release t) : a.feed c = ((fresh.feed c).1, t :: (fresh.feed c).2) := by
  rw [feed_fresh, feed, h]

theorem run_singleton (a : Automaton) (c : Char) : a.run [c] = a.feed c := by
  rw [run, run, List.append_nil]

theorem tokens_extend {next : State} (h : a.move c = .extend next) :
    (a.run (c :: cs)).2 = (run ⟨next, c :: a.recent⟩ cs).2 := by
  simp only [run, feed_extend h, List.nil_append]

theorem tokens_resolve {v : Char} {next : State} (h : a.move c = .resolve v next) :
    (a.run (c :: cs)).2 = (run ⟨next, v :: a.recent.tail⟩ cs).2 := by
  simp only [run, feed_resolve h, List.nil_append]

theorem tokens_finish (h : a.move c = .finish t) : (a.run (c :: cs)).2 = t :: (fresh.run cs).2 := by
  simp only [run, feed_finish h, List.singleton_append]

theorem tokens_skip (h : a.move c = .skip) : (a.run (c :: cs)).2 = (a.run cs).2 := by
  simp only [run, feed_skip h, List.nil_append]

theorem run_release (h : a.move c = .release t) :
    a.run (c :: cs) = ((fresh.run (c :: cs)).1, t :: (fresh.run (c :: cs)).2) := by
  simp only [run, feed_release h, List.cons_append]

theorem tokens_release (h : a.move c = .release t) : (a.run (c :: cs)).2 = t :: (fresh.run (c :: cs)).2 := by
  rw [run_release h]

/-- A state matters only through its next move. -/
theorem tokens_congr {b : Automaton} (hmove : a.move c = b.move c) (hrecent : a.recent = b.recent)
    (hskip : b.move c ≠ .skip) : (a.run (c :: cs)).2 = (b.run (c :: cs)).2 := by
  cases h : b.move c with
  | extend next => rw [tokens_extend h, tokens_extend (hmove.trans h), hrecent]
  | resolve v next => rw [tokens_resolve h, tokens_resolve (hmove.trans h), hrecent]
  | finish t => rw [tokens_finish h, tokens_finish (hmove.trans h)]
  | release t =>
    have ha : a.move c = .release t := hmove.trans h
    rw [tokens_release ha, tokens_release h]
  | skip => exact absurd h hskip

end Step

/-! ## Runs -/

section Run

variable {cs recent : List Char}

/-- A state that a class of characters keeps, and any other character leaves, reads the run of its class to the end. -/
theorem tokens_run {q : State} {part : Char → Bool} (toToken : List Char → Token)
    (hmove : ∀ recent c, q.move recent c = if part c then .extend q else .release (toToken recent.reverse))
    (hend : part endMark = false) (cs recent : List Char) :
    (run ⟨q, recent⟩ (cs ++ [endMark])).2 =
      toToken (recent.reverse ++ cs.takeWhile part) :: lex (cs.dropWhile part) := by
  have hstop : ∀ recent c, part c = false → move ⟨q, recent⟩ c = .release (toToken recent.reverse) := by
    intro recent c hpart
    rw [move, hmove, hpart, if_neg Bool.false_ne_true]
  induction cs generalizing recent with
  | nil =>
    rw [List.nil_append, tokens_release (hstop recent endMark hend), List.takeWhile_nil, List.append_nil]
    rfl
  | cons c cs ih =>
    rw [List.cons_append]
    cases hpart : part c with
    | true =>
      have hmore : move ⟨q, recent⟩ c = .extend q := by rw [move, hmove, hpart, if_pos rfl]
      rw [tokens_extend hmore, ih, List.takeWhile_cons_of_pos hpart, List.dropWhile_cons_of_pos hpart,
        List.reverse_cons, List.append_assoc, List.singleton_append]
    | false =>
      have hnot : ¬part c = true := by rw [hpart]; exact Bool.false_ne_true
      rw [tokens_release (hstop recent c hpart), List.takeWhile_cons_of_neg hnot, List.dropWhile_cons_of_neg hnot,
        List.append_nil]
      rfl

theorem tokens_word (cs recent : List Char) : (run ⟨.word, recent⟩ (cs ++ [endMark])).2 =
    .ofWord (.ofList (recent.reverse ++ cs.takeWhile isWordPart)) :: lex (cs.dropWhile isWordPart) :=
  tokens_run (fun w => .ofWord (.ofList w)) (fun _ _ => rfl) rfl cs recent

theorem tokens_numeral (r : Radix) (cs recent : List Char) : (run ⟨.numeral r, recent⟩ (cs ++ [endMark])).2 =
    .literal (.integer r (r.value (recent.reverse ++ cs.takeWhile (State.isNumeralPart r)))) ::
      lex (cs.dropWhile (State.isNumeralPart r)) :=
  tokens_run (fun w => .literal (.integer r (r.value w))) (fun _ _ => rfl) (by cases r <;> rfl) cs recent

theorem tokens_blank (cs recent : List Char) :
    (run ⟨.blank, recent⟩ (cs ++ [endMark])).2 = .blank :: lex (cs.dropWhile isBlank) :=
  tokens_run (fun _ => .blank) (fun _ _ => rfl) rfl cs recent

theorem ne_endMark {c : Char} (hcs : endMark ∉ c :: cs) : isEndMark c = false := by
  have hc : endMark ≠ c ∧ endMark ∉ cs := by simpa using hcs
  simpa [isEndMark] using hc.1.symm

/-- A text without end marks ends its lines at line feeds only. -/
theorem dropWhile_lineEnd (hcs : endMark ∉ cs) : cs.dropWhile (fun c => !isLineEnd c) = afterLine cs := by
  induction cs with
  | nil => rfl
  | cons c cs ih =>
    rw [afterLine, List.dropWhile_cons, List.dropWhile_cons, ih (List.not_mem_of_not_mem_cons hcs), isLineEnd,
      ne_endMark hcs, Bool.or_false]
    rfl

theorem tokens_comment (hcs : endMark ∉ cs) :
    (run ⟨.comment, recent⟩ (cs ++ [endMark])).2 = .comment :: lex (afterLine cs) := by
  have hmove : ∀ recent c, State.comment.move recent c =
      if !isLineEnd c then .extend .comment else .release .comment := by
    intro recent c
    cases h : isLineEnd c <;> simp [State.move, h]
  rw [tokens_run (fun _ => .comment) hmove rfl, dropWhile_lineEnd hcs]

/-- The end mark extends a run of operator symbols, so that nothing releases it any more. -/
theorem tokens_operator (hcs : endMark ∉ cs) : (run ⟨.operator, recent⟩ (cs ++ [endMark])).2 =
    match cs.dropWhile isOperatorSymbol with
    | [] => []
    | rest => .operator (.ofList (recent.reverse ++ cs.takeWhile isOperatorSymbol)) :: lex rest := by
  induction cs generalizing recent with
  | nil => rfl
  | cons c cs ih =>
    rw [List.cons_append]
    cases hpart : isOperatorSymbol c with
    | true =>
      have hmore : move ⟨.operator, recent⟩ c = .extend .operator := by simp [move, State.move, hpart]
      rw [tokens_extend hmore, ih (List.not_mem_of_not_mem_cons hcs), List.takeWhile_cons_of_pos hpart,
        List.dropWhile_cons_of_pos hpart, List.reverse_cons, List.append_assoc, List.singleton_append]
    | false =>
      have hnot : ¬isOperatorSymbol c = true := by rw [hpart]; exact Bool.false_ne_true
      have hstop : move ⟨.operator, recent⟩ c = .release (.operator (.ofList recent.reverse)) := by
        simp [move, State.move, hpart, ne_endMark hcs]
      rw [tokens_release hstop, List.takeWhile_cons_of_neg hnot, List.dropWhile_cons_of_neg hnot, List.append_nil]
      rfl

end Run

/-! ## Quoted literals -/

section Quoted

variable {c v : Char} {cs recent : List Char}

/-! ### Their moves -/

theorem charOpen_more (hquote : c ≠ '\'') (hline : isLineEnd c = false) (hslash : c ≠ '\\') :
    move ⟨.charOpen, recent⟩ c = .extend .charFilled := by
  simp [move, State.move, hquote, hline, hslash]

theorem charEscape_resolve (hv : resolveEscape c = some v) :
    move ⟨.charEscape, recent⟩ c = .resolve v .charFilled := by
  simp [move, State.move, hv]

theorem charEscape_more (hv : resolveEscape c = none) (hline : isLineEnd c = false) :
    move ⟨.charEscape, recent⟩ c = .extend .charOverfull := by
  simp [move, State.move, hv, hline]

theorem charFilled_more (hquote : c ≠ '\'') (hline : isLineEnd c = false) :
    move ⟨.charFilled, recent⟩ c = .extend .charOverfull := by
  simp [move, State.move, hquote, hline]

theorem charOverfull_more (hquote : c ≠ '\'') (hline : isLineEnd c = false) :
    move ⟨.charOverfull, recent⟩ c = .extend .charOverfull := by
  simp [move, State.move, hquote, hline]

theorem string_more (hslash : c ≠ '\\') (hline : isLineEnd c = false) (hquote : c ≠ '"') :
    move ⟨.string, recent⟩ c = .extend .string := by
  simp [move, State.move, hslash, hline, hquote]

theorem stringEscape_resolve (hv : resolveEscape c = some v) :
    move ⟨.stringEscape, recent⟩ c = .resolve v .string := by
  simp [move, State.move, hv]

/-- The backslash stays in front of a character that no escape is written with. -/
theorem stringEscape_more (hv : resolveEscape c = none) (hline : isLineEnd c = false) :
    move ⟨.stringEscape, recent⟩ c = .extend .string := by
  simp [move, State.move, hv, hline]

theorem eq_of_isLineEnd (h : isLineEnd c = true) : c = '\n' ∨ c = endMark := by
  simpa [isLineEnd, isLineFeed, isEndMark] using h

/-- In every state of a character literal the end of the line releases it. -/
theorem char_lineEnd {q : State} (hq : q = .charOpen ∨ q = .charFilled ∨ q = .charEscape ∨ q = .charOverfull)
    (hline : isLineEnd c = true) (recent : List Char) : move ⟨q, recent⟩ c = .release (.literal .badChar) := by
  rcases eq_of_isLineEnd hline with rfl | rfl
  all_goals rcases hq with rfl | rfl | rfl | rfl <;> rfl

theorem string_lineEnd {q : State} (hq : q = .string ∨ q = .stringEscape) (hline : isLineEnd c = true)
    (recent : List Char) : move ⟨q, recent⟩ c = .release (.literal .badString) := by
  rcases eq_of_isLineEnd hline with rfl | rfl
  all_goals rcases hq with rfl | rfl <;> rfl

/-! ### Their tokens -/

theorem afterLine_cons (hc : c ≠ '\n') : afterLine (c :: cs) = afterLine cs :=
  List.dropWhile_cons_of_pos (by simpa [isLineFeed] using hc)

theorem afterQuote_cons (hquote : c ≠ '\'') (hline : c ≠ '\n') : afterQuote (c :: cs) = afterQuote cs := by
  have hpass : (!(c == '\'' || isLineFeed c)) = true := by simpa [isLineFeed] using ⟨hquote, hline⟩
  rw [afterQuote, afterQuote, List.dropWhile_cons, if_pos hpass]

/-- A line runs on, where no line feed stands. -/
theorem isLineEnd_eq_false (hcs : endMark ∉ c :: cs) (hline : c ≠ '\n') : isLineEnd c = false := by
  simp [isLineEnd, isLineFeed, hline, ne_endMark hcs]

/-- The state of a string whose text so far is `body`. -/
def openString (body : List Char) : Automaton := ⟨.string, body.reverse ++ ['"']⟩

theorem openString_append (body cs : List Char) :
    (⟨.string, cs.reverse ++ (openString body).recent⟩ : Automaton) = openString (body ++ cs) := by
  rw [openString, openString, List.reverse_append, List.append_assoc]

/-- The closing quote completes the string. -/
theorem openString_close (body : List Char) : (openString body).move '"' = .finish (.literal (.string (.ofList body))) := by
  simp [openString, move, State.move, isLineEnd, isLineFeed, isEndMark, endMark]

theorem feed_openString (hslash : c ≠ '\\') (hline : isLineEnd c = false) (hquote : c ≠ '"') (body : List Char) :
    (openString body).feed c = (openString (body ++ [c]), []) := by
  rw [← openString_append]
  exact feed_extend (string_more hslash hline hquote)

theorem feed_stringEscape_resolve (hv : resolveEscape c = some v) (body : List Char) :
    feed ⟨.stringEscape, '\\' :: (openString body).recent⟩ c = (openString (body ++ [v]), []) := by
  rw [← openString_append]
  exact feed_resolve (stringEscape_resolve hv)

theorem feed_stringEscape_more (hv : resolveEscape c = none) (hline : isLineEnd c = false) (body : List Char) :
    feed ⟨.stringEscape, '\\' :: (openString body).recent⟩ c = (openString (body ++ ['\\', c]), []) := by
  rw [← openString_append]
  exact feed_extend (stringEscape_more hv hline)

/-- A backslash and the character after it are read as one. -/
theorem feed_stringEscape (hline : isLineEnd c = false) (body : List Char) :
    feed ⟨.stringEscape, '\\' :: (openString body).recent⟩ c = (openString (body ++ unescape ['\\', c]), []) := by
  rw [unescape]
  cases hv : resolveEscape c with
  | some v => exact feed_stringEscape_resolve hv body
  | none => exact feed_stringEscape_more hv hline body

/-- A string is completed by its closing quote, or cut off by the end of the line. -/
theorem tokens_string (hcs : endMark ∉ cs) (body : List Char) :
    ((openString body).run (cs ++ [endMark])).2 = match closeString cs with
      | some (more, rest) => .literal (.string (.ofList (body ++ unescape more))) :: lex rest
      | none => .literal .badString :: lex (afterLine cs) := by
  fun_induction closeString cs generalizing body with
  | case1 =>
    have hstop : (openString body).move endMark = .release (.literal .badString) := rfl
    rw [List.nil_append, tokens_release hstop]
    rfl
  | case2 cs =>
    rw [List.cons_append, tokens_finish (openString_close body)]
    simp only [unescape, List.append_nil]
    rfl
  | case3 cs =>
    have hstop : (openString body).move '\n' = .release (.literal .badString) := rfl
    rw [List.cons_append, tokens_release hstop]
    rfl
  | case4 cs =>
    have hescape : (openString body).move '\\' = .extend .stringEscape := rfl
    have hstop : move ⟨.stringEscape, '\\' :: (openString body).recent⟩ '\n' = .release (.literal .badString) := rfl
    rw [List.cons_append, List.cons_append, tokens_extend hescape, tokens_release hstop]
    rfl
  | case5 c cs hc ih =>
    have hescape : (openString body).move '\\' = .extend .stringEscape := rfl
    have hcs := List.not_mem_of_not_mem_cons hcs
    rw [List.cons_append, List.cons_append, tokens_extend hescape, run, feed_stringEscape (isLineEnd_eq_false hcs hc)]
    show ((openString (body ++ unescape ['\\', c])).run (cs ++ [endMark])).2 = _
    rw [ih (List.not_mem_of_not_mem_cons hcs), afterLine_cons (by decide), afterLine_cons hc]
    cases closeString cs <;> simp [unescape]
  | case6 c cs hquote hline hescape ih =>
    by_cases hc : c = '\\'
    · -- a backslash that ends the text
      subst hc
      obtain rfl : cs = [] := by
        cases cs with
        | nil => rfl
        | cons d ds => exact absurd rfl (hescape d ds rfl)
      rfl
    · rw [List.cons_append, run, feed_openString hc (isLineEnd_eq_false hcs hline) hquote]
      show ((openString (body ++ [c])).run (cs ++ [endMark])).2 = _
      rw [ih (List.not_mem_of_not_mem_cons hcs), afterLine_cons hline]
      cases closeString cs <;> simp [unescape, hc]

/-- A malformed character literal goes on to the next quote on the line, and else to the end of the line. -/
theorem tokens_charOverfull (hcs : endMark ∉ cs) (recent : List Char) :
    (run ⟨.charOverfull, recent⟩ (cs ++ [endMark])).2 = .literal .badChar :: lex (afterQuote cs) := by
  induction cs generalizing recent with
  | nil => rfl
  | cons c cs ih =>
    by_cases hquote : c = '\''
    · subst hquote
      have hfinish : move ⟨.charOverfull, recent⟩ '\'' = .finish (.literal .badChar) := rfl
      rw [List.cons_append, tokens_finish hfinish]
      rfl
    by_cases hline : c = '\n'
    · subst hline
      have hstop : move ⟨.charOverfull, recent⟩ '\n' = .release (.literal .badChar) := rfl
      rw [List.cons_append, tokens_release hstop]
      rfl
    rw [List.cons_append, tokens_extend (charOverfull_more hquote (isLineEnd_eq_false hcs hline)),
      ih (List.not_mem_of_not_mem_cons hcs), afterQuote_cons hquote hline]

/-- A character literal that goes on as a malformed one does is malformed. -/
theorem tokens_malformed {q : State} (hmove : q.move recent c = State.charOverfull.move recent c) :
    (run ⟨q, recent⟩ (c :: cs)).2 = (run ⟨.charOverfull, recent⟩ (c :: cs)).2 := by
  refine tokens_congr hmove rfl fun hskip => ?_
  cases State.moves_of_move hskip

/-- A character literal with its character `v` read is completed by a quote only. -/
theorem tokens_charFilled (hcs : endMark ∉ cs) (v : Char) :
    (run ⟨.charFilled, [v, '\'']⟩ (cs ++ [endMark])).2 = (Munch.closeChar (some v) cs).tokens lex := by
  cases cs with
  | nil => rfl
  | cons c cs =>
    by_cases hquote : c = '\''
    · subst hquote
      have hfinish : move ⟨.charFilled, [v, '\'']⟩ '\'' = .finish (.literal (.char v)) := rfl
      rw [List.cons_append, tokens_finish hfinish]
      rfl
    · have hmove : State.charFilled.move [v, '\''] c = State.charOverfull.move [v, '\''] c := by
        simp [State.move, hquote]
      have hclose : Munch.closeChar (some v) (c :: cs) = .token (.literal .badChar) (afterQuote (c :: cs)) := by
        simp [Munch.closeChar, hquote]
      rw [List.cons_append, tokens_malformed hmove, ← List.cons_append, tokens_charOverfull hcs, hclose]
      rfl

theorem tokens_char (hcs : endMark ∉ cs) :
    (run ⟨.charOpen, ['\'']⟩ (cs ++ [endMark])).2 = (Munch.char cs).tokens lex := by
  unfold Munch.char
  fun_cases firstUnit cs with
  | case1 => rfl
  | case2 cs => exact tokens_charOverfull hcs ['\'']
  | case3 cs => exact tokens_charOverfull hcs ['\'']
  | case4 cs =>
    have hescape : move ⟨.charOpen, ['\'']⟩ '\\' = .extend .charEscape := rfl
    rw [List.cons_append, tokens_extend hescape]
    exact tokens_charOverfull (List.not_mem_of_not_mem_cons hcs) ['\\', '\'']
  | case5 c cs hline =>
    have hescape : move ⟨.charOpen, ['\'']⟩ '\\' = .extend .charEscape := rfl
    have hcs' := List.not_mem_of_not_mem_cons hcs
    rw [List.cons_append, tokens_extend hescape]
    cases hv : resolveEscape c with
    | some v =>
      rw [List.cons_append, tokens_resolve (charEscape_resolve hv)]
      exact tokens_charFilled (List.not_mem_of_not_mem_cons hcs') v
    | none =>
      have hquote : c ≠ '\'' := by
        rintro rfl
        cases hv
      have hmove : State.charEscape.move ['\\', '\''] c = State.charOverfull.move ['\\', '\''] c := by
        simp [State.move, hv, hquote]
      rw [List.cons_append, tokens_malformed hmove, ← List.cons_append, tokens_charOverfull hcs',
        afterQuote_cons hquote hline]
      rfl
  | case6 => rfl
  | case7 c cs hquote hline hescape hlone =>
    have hc : c ≠ '\\' := by
      intro hc
      cases cs with
      | nil => exact hlone hc rfl
      | cons d ds => exact hescape d ds hc rfl
    rw [List.cons_append, tokens_extend (charOpen_more hquote (isLineEnd_eq_false hcs hline) hc)]
    exact tokens_charFilled (List.not_mem_of_not_mem_cons hcs) c

end Quoted

/-! ## Numerals -/

section Numeral

variable {c : Char} {cs : List Char}

/-- A zero that no mark follows is the first digit of a decimal numeral. -/
theorem tokens_zero (hbinary : ¬isBinaryMark c = true) (hhex : ¬isHexadecimalMark c = true) :
    (run ⟨.zero, ['0']⟩ (c :: cs)).2 = (run ⟨.numeral .decimal, ['0']⟩ (c :: cs)).2 := by
  have hvalue : Radix.decimal.value ['0'] = 0 := rfl
  have hmove : State.zero.move ['0'] c = (State.numeral .decimal).move ['0'] c := by
    simp [State.move, hbinary, hhex, State.isNumeralPart, Bool.or_comm, hvalue]
  refine tokens_congr hmove rfl fun hskip => ?_
  cases State.moves_of_move hskip

theorem tokens_startNumeral (hdigit : isDigit c = true) (hword : isWordStart c = false) :
    (fresh.run (c :: cs ++ [endMark])).2 = (Munch.numeral c cs).tokens lex := by
  unfold Munch.numeral
  split
  · rename_i m ds
    have hzero : fresh.move '0' = .extend .zero := rfl
    rw [List.cons_append, tokens_extend hzero, List.cons_append]
    split
    · rename_i hbinary
      have hmark : move ⟨.zero, ['0']⟩ m = .extend (.numeral .binary) := by simp [move, State.move, hbinary]
      rw [fresh, tokens_extend hmark]
      exact tokens_numeral .binary ds [m, '0']
    · rename_i hbinary
      split
      · rename_i hhex
        have hmark : move ⟨.zero, ['0']⟩ m = .extend (.numeral .hexadecimal) := by
          simp [move, State.move, hbinary, hhex]
        rw [fresh, tokens_extend hmark]
        exact tokens_numeral .hexadecimal ds [m, '0']
      · rename_i hhex
        rw [fresh, tokens_zero hbinary hhex]
        exact tokens_numeral .decimal (m :: ds) ['0']
  · rename_i hlone
    rw [List.cons_append]
    by_cases hc : c = '0'
    · subst hc
      obtain rfl : cs = [] := by
        cases cs with
        | nil => rfl
        | cons m ds => exact absurd rfl (hlone m ds rfl)
      rfl
    · have hstart : fresh.move c = .extend (.numeral .decimal) := by
        simp [fresh, move, State.move, State.start, hword, hc, hdigit]
      rw [tokens_extend hstart]
      exact tokens_numeral .decimal cs [c]

end Numeral

end Automaton

/-! ## Whole texts -/

/-- The automaton finds what stands at the front of a text, and goes on behind it as from the beginning. -/
theorem lex_munch {c : Char} {cs : List Char} (h : endMark ∉ c :: cs) : lex (c :: cs) = (munch c cs).tokens lex := by
  have hend : isEndMark c = false := Automaton.ne_endMark h
  have hcs := List.not_mem_of_not_mem_cons h
  show (Automaton.fresh.run (c :: (cs ++ [endMark]))).2 = _
  unfold munch
  split
  · rename_i hword
    have hstart : Automaton.fresh.move c = .extend .word := if_pos hword
    rw [Automaton.tokens_extend hstart]
    exact Automaton.tokens_word cs [c]
  rename_i hword
  split
  · rename_i hdigit
    exact Automaton.tokens_startNumeral hdigit (by simpa using hword)
  rename_i hdigit
  have hzero : c ≠ '0' := by
    rintro rfl
    exact hdigit rfl
  split
  · rename_i hoperator
    have hstart : Automaton.fresh.move c = .extend .operator := by
      simp [Automaton.fresh, Automaton.move, State.move, State.start, hword, hzero, hdigit, hoperator]
    rw [Automaton.tokens_extend hstart, Automaton.tokens_operator hcs]
    unfold Munch.operator
    cases cs.dropWhile isOperatorSymbol <;> rfl
  rename_i hoperator
  split
  · rename_i hblank
    have hstart : Automaton.fresh.move c = .extend .blank := by
      simp [Automaton.fresh, Automaton.move, State.move, State.start, hword, hzero, hdigit, hoperator, hblank]
    rw [Automaton.tokens_extend hstart]
    exact Automaton.tokens_blank cs [c]
  rename_i hblank
  split
  · exact Automaton.tokens_comment hcs
  · exact Automaton.tokens_char hcs
  · have hstring := Automaton.tokens_string hcs []
    have hmunch : (Munch.string cs).tokens lex = match closeString cs with
        | some (body, rest) => .literal (.string (.ofList (unescape body))) :: lex rest
        | none => .literal .badString :: lex (afterLine cs) := by
      unfold Munch.string
      cases closeString cs <;> rfl
    rw [hmunch]
    exact hstring
  · exact Automaton.tokens_finish rfl
  · exact Automaton.tokens_finish rfl
  · exact Automaton.tokens_finish rfl
  · exact Automaton.tokens_finish rfl
  · exact Automaton.tokens_finish rfl
  · exact Automaton.tokens_finish rfl
  · exact Automaton.tokens_skip rfl
  · exact Automaton.tokens_finish rfl
  · have hstart : Automaton.fresh.move c = .finish .unknown := by
      simp_all [Automaton.fresh, Automaton.move, State.move, State.start, isCarriageReturn, isLineFeed]
    exact Automaton.tokens_finish hstart

theorem lex_nil : lex [] = [.endOfInput] := rfl

theorem endMark_notMem_rest {c : Char} {cs : List Char} (h : endMark ∉ c :: cs) : endMark ∉ (munch c cs).rest :=
  fun hm => List.not_mem_of_not_mem_cons h ((munch_suffix c cs).mem hm)

/-- The automaton agrees with the scanner of longest matches. -/
theorem lex_eq_scan {text : List Char} (h : endMark ∉ text) : lex text = scan text := by
  induction text using munch_induction with
  | nil => rw [lex_nil, scan_nil]
  | cons c cs ih =>
    have hbehind := ih (endMark_notMem_rest h)
    rw [lex_munch h, scan_cons]
    cases hm : munch c cs with
    | token t rest =>
      rw [hm] at hbehind
      exact congrArg (t :: ·) hbehind
    | nothing rest =>
      rw [hm] at hbehind
      exact hbehind
    | unfinished => rfl

/-- A numeral with an empty tail, an escape of either kind, a character literal too long, and a run of operator symbols
that closes the text. -/
theorem lex_eq_scan_unfinished :
    endMark ∉ "0x g\"\\t\\q\"'ab' 7+=".toList ∧
      scan "0x g\"\\t\\q\"'ab' 7+=".toList =
        [.literal (.integer .hexadecimal 0), .blank, .identifier "g", .literal (.string "\t\\q"), .literal .badChar,
          .blank, .literal (.integer .decimal 7)] :=
  ⟨by decide, (lex_eq_scan (by decide)).symm.trans rfl⟩

end Parlance
