import Parlance.Token.Automaton

/-!
# What one character can do

The moves of the automaton as relations, with the guard of each: `Begins` with no token open, `Extends` for a character
that becomes part of the open token, and `Moves` for any state. A function of the automaton is read back into them once
(`begins`, `moves`), and what holds of one move is then a short case analysis.

Releasing has one rule for all states. The token released depends on the open characters only (`closed`), and where a
comment or a literal in quotes is open, nothing but the end of the line releases it.
-/

namespace Parlance

namespace State

/-- The token that is made of the open characters `text` where their line ends. -/
def closed (text : List Char) : State → Option Token
  | idle => none
  | word => some (.ofWord (.ofList text))
  | operator => some (.operator (.ofList text))
  | zero => some (.literal (.integer .decimal 0))
  | numeral r => some (.literal (.integer r (r.value text)))
  | charOpen | charFilled | charEscape | charOverfull => some (.literal .badChar)
  | string | stringEscape => some (.literal .badString)
  | comment => some .comment
  | blank => some .blank

/-- The states of tokens that are no comment and not quoted. -/
def Bare : State → Prop
  | word | operator | zero | numeral _ | blank => True
  | _ => False

/-! ## With no token open -/

/-- The move on a character that finds no token open. -/
inductive Begins (c : Char) : Move → Prop where
  | word (start : isWordStart c = true) : Begins c (.extend word)
  | zero (digit : c = '0') : Begins c (.extend zero)
  | numeral (digit : isDigit c = true) : Begins c (.extend (numeral .decimal))
  | operator (symbol : isOperatorSymbol c = true) : Begins c (.extend operator)
  | blank (part : isBlank c = true) : Begins c (.extend blank)
  | comment (sign : c = '#') : Begins c (.extend comment)
  | char (quote : c = '\'') : Begins c (.extend charOpen)
  | string (quote : c = '"') : Begins c (.extend string)
  | leftParen : Begins c (.finish .leftParen)
  | rightParen : Begins c (.finish .rightParen)
  | leftCurl : Begins c (.finish .leftCurl)
  | rightCurl : Begins c (.finish .rightCurl)
  | colon : Begins c (.finish .colon)
  | comma : Begins c (.finish .comma)
  | skip : Begins c .skip
  | newLine (line : c = '\n') : Begins c (.finish .newLine)
  | endOfInput (mark : c = endMark) : Begins c (.finish .endOfInput)
  | unknown : Begins c (.finish .unknown)

theorem begins (c : Char) : Begins c (start c) := by
  unfold start
  repeat' refine iteInduction (motive := Begins c) (fun h => ?_) (fun _ => ?_)
  · exact .word h
  · exact .zero (eq_of_beq h)
  · exact .numeral h
  · exact .operator h
  · exact .blank h
  · exact .comment (eq_of_beq h)
  · exact .char (eq_of_beq h)
  · exact .string (eq_of_beq h)
  · exact .leftParen
  · exact .rightParen
  · exact .leftCurl
  · exact .rightCurl
  · exact .colon
  · exact .comma
  · exact .skip
  · exact .newLine (eq_of_beq h)
  · exact .endOfInput (eq_of_beq h)
  · exact .unknown

theorem begins_of_start {c : Char} {m : Move} (h : start c = m) : Begins c m :=
  h ▸ begins c

/-! ## With a token open -/

/-- A character that becomes part of the open token, and the states before and behind it. -/
inductive Extends (c : Char) : State → State → Prop where
  | word (part : isWordPart c = true) : Extends c .word .word
  | operator (part : (isOperatorSymbol c || isEndMark c) = true) : Extends c .operator .operator
  | binary (mark : isBinaryMark c = true) : Extends c .zero (.numeral .binary)
  | hexadecimal (mark : isHexadecimalMark c = true) : Extends c .zero (.numeral .hexadecimal)
  | decimal (part : isNumeralPart .decimal c = true) : Extends c .zero (.numeral .decimal)
  | numeral {r : Radix} (part : isNumeralPart r c = true) : Extends c (.numeral r) (.numeral r)
  | charEscape (slash : c = '\\') : Extends c .charOpen .charEscape
  | charFilled (line : isLineEnd c = false) : Extends c .charOpen .charFilled
  | overfilled (line : isLineEnd c = false) : Extends c .charFilled .charOverfull
  | overescaped (line : isLineEnd c = false) : Extends c .charEscape .charOverfull
  | overfull (line : isLineEnd c = false) : Extends c .charOverfull .charOverfull
  | stringEscape (slash : c = '\\') : Extends c .string .stringEscape
  | string (line : isLineEnd c = false) : Extends c .string .string
  | stringKept (line : isLineEnd c = false) : Extends c .stringEscape .string
  | comment (line : isLineEnd c = false) : Extends c .comment .comment
  | blank (part : isBlank c = true) : Extends c .blank .blank

/-- The move on the character `c`, where `recent` is the open token so far, the character read last in front. -/
inductive Moves (recent : List Char) (c : Char) : State → Move → Prop where
  | start {m : Move} (first : Begins c m) : Moves recent c .idle m
  | extend {q next : State} (more : Extends c q next) : Moves recent c q (.extend next)
  | resolveChar {v : Char} (escape : resolveEscape c = some v) : Moves recent c .charEscape (.resolve v .charFilled)
  | resolveString {v : Char} (escape : resolveEscape c = some v) : Moves recent c .stringEscape (.resolve v .string)
  | finishEmpty (quote : c = '\'') : Moves recent c .charOpen (.finish (.literal .badChar))
  | finishChar (quote : c = '\'') :
      Moves recent c .charFilled (.finish (.literal (recent.reverse[1]?.elim .badChar .char)))
  | finishOverfull (quote : c = '\'') : Moves recent c .charOverfull (.finish (.literal .badChar))
  | finishString (quote : c = '"') :
      Moves recent c .string (.finish (.literal (.string (.ofList (recent.reverse.drop 1)))))
  /-- Any other character releases a word, an operator, a numeral or blanks, and the end of the line all the rest. -/
  | release {q : State} {t : Token} (token : q.closed recent.reverse = some t)
      (reason : q.Bare ∨ isLineEnd c = true) : Moves recent c q (.release t)

section Moves

variable {recent : List Char} {c : Char} {q : State} {m n : Move}

theorem Moves.ite {p : Prop} [Decidable p] (ht : p → Moves recent c q m) (he : ¬p → Moves recent c q n) :
    Moves recent c q (if p then m else n) :=
  iteInduction ht he

theorem moves (recent : List Char) (c : Char) (q : State) : Moves recent c q (q.move recent c) := by
  cases q with
  | idle => exact .start (begins c)
  | word => exact .ite (fun h => .extend (.word h)) fun _ => .release rfl (.inl trivial)
  | operator => exact .ite (fun h => .extend (.operator h)) fun _ => .release rfl (.inl trivial)
  | zero =>
    refine .ite (fun h => .extend (.binary h)) fun _ => ?_
    refine .ite (fun h => .extend (.hexadecimal h)) fun _ => ?_
    refine .ite (fun h => .extend (.decimal ?_)) fun _ => .release rfl (.inl trivial)
    rwa [Bool.or_comm] at h
  | numeral r => exact .ite (fun h => .extend (.numeral h)) fun _ => .release rfl (.inl trivial)
  | charOpen =>
    refine .ite (fun h => .finishEmpty (eq_of_beq h)) fun _ => ?_
    refine .ite (fun h => .release rfl (.inr h)) fun hline => ?_
    refine .ite (fun h => .extend (.charEscape (eq_of_beq h))) fun _ => ?_
    exact .extend (.charFilled (eq_false_of_ne_true hline))
  | charFilled =>
    refine .ite (fun h => .finishChar (eq_of_beq h)) fun _ => ?_
    refine .ite (fun h => .release rfl (.inr h)) fun hline => ?_
    exact .extend (.overfilled (eq_false_of_ne_true hline))
  | charEscape =>
    rw [move]
    split
    · exact .resolveChar ‹_›
    refine .ite (fun h => .release rfl (.inr h)) fun hline => ?_
    exact .extend (.overescaped (eq_false_of_ne_true hline))
  | charOverfull =>
    refine .ite (fun h => .finishOverfull (eq_of_beq h)) fun _ => ?_
    refine .ite (fun h => .release rfl (.inr h)) fun hline => ?_
    exact .extend (.overfull (eq_false_of_ne_true hline))
  | string =>
    refine .ite (fun h => .extend (.stringEscape (eq_of_beq h))) fun _ => ?_
    refine .ite (fun h => .release rfl (.inr h)) fun hline => ?_
    refine .ite (fun h => .finishString (eq_of_beq h)) fun _ => ?_
    exact .extend (.string (eq_false_of_ne_true hline))
  | stringEscape =>
    rw [move]
    split
    · exact .resolveString ‹_›
    refine .ite (fun h => .release rfl (.inr h)) fun hline => ?_
    exact .extend (.stringKept (eq_false_of_ne_true hline))
  | comment =>
    refine .ite (fun h => .release rfl (.inr h)) fun hline => ?_
    exact .extend (.comment (eq_false_of_ne_true hline))
  | blank => exact .ite (fun h => .extend (.blank h)) fun _ => .release rfl (.inl trivial)

theorem moves_of_move (h : q.move recent c = m) : Moves recent c q m :=
  h ▸ moves recent c q

end Moves

end State

end Parlance
