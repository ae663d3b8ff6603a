import Parlance.Text.Alphabet
import Parlance.Text.Escape
import Parlance.Token

/-!
# The automaton that finds tokens

A machine that reads a text one character at a time. Its **state** says what kind of token is open, and it keeps the
characters of that token. One character extends the open token, completes it, or **releases** it: the token is closed
without the character, which is then read again with nothing open. So a token is as long as it can be with one character
of foresight, and no character completes more than two tokens.
-/

namespace Parlance

/-- The kind of token that is open. -/
inductive State where
  /-- No token is open. -/
  | idle
  | word
  | operator
  /-- A zero, which a mark can still turn into a numeral of another radix. -/
  | zero
  | numeral (radix : Radix)
  /-- A character literal of which only the opening quote is read. -/
  | charOpen
  /-- A character literal with its one character read. -/
  | charFilled
  | charEscape
  /-- A character literal that is too long already. -/
  | charOverfull
  | string
  | stringEscape
  | comment
  | blank
deriving DecidableEq

/-- What one character does to the open token. -/
inductive Move where
  /-- It becomes part of the token. -/
  | extend (next : State)
  /-- It resolves the escape whose backslash was read last. -/
  | resolve (value : Char) (next : State)
  /-- It is the last of the token. -/
  | finish (token : Token)
  /-- It no longer belongs to the token. -/
  | release (token : Token)
  /-- It is dropped. -/
  | skip

/-! ## The moves of each state -/

namespace State

/-- With no token open, a character tells the kind of the next one. -/
def start (c : Char) : Move :=
  if isWordStart c then .extend word
  else if c == '0' then .extend zero
  else if isDigit c then .extend (numeral .decimal)
  else if isOperatorSymbol c then .extend operator
  else if isBlank c then .extend blank
  else if c == '#' then .extend comment
  else if c == '\'' then .extend charOpen
  else if c == '"' then .extend string
  else if c == '(' then .finish .leftParen
  else if c == ')' then .finish .rightParen
  else if c == '{' then .finish .leftCurl
  else if c == '}' then .finish .rightCurl
  else if c == ':' then .finish .colon
  else if c == ',' then .finish .comma
  else if isCarriageReturn c then .skip
  else if isLineFeed c then .finish .newLine
  else if isEndMark c then .finish .endOfInput
  else .finish .unknown

/-- The characters that a numeral goes on with. -/
def isNumeralPart (r : Radix) (c : Char) : Bool :=
  isUnderscore c || match r with
    | .binary => isBinaryDigit c
    | .decimal => isDigit c
    | .hexadecimal => isHexadecimalDigit c

/-- The move on a character `c`, where `recent` is the open token so far, the character read last in front. -/
def move (recent : List Char) (c : Char) : State → Move
  | idle => start c
  | word => if isWordPart c then .extend word else .release (.ofWord (.ofList recent.reverse))
  -- the end mark extends the run, so an operator that ends the text is never released
  | operator =>
    if isOperatorSymbol c || isEndMark c then .extend operator else .release (.operator (.ofList recent.reverse))
  | zero =>
    if isBinaryMark c then .extend (numeral .binary)
    else if isHexadecimalMark c then .extend (numeral .hexadecimal)
    else if isDigit c || isUnderscore c then .extend (numeral .decimal)
    else .release (.literal (.integer .decimal 0))
  | numeral r =>
    if isNumeralPart r c then .extend (numeral r)
    else .release (.literal (.integer r (r.value recent.reverse)))
  | charOpen =>
    if c == '\'' then .finish (.literal .badChar)
    else if isLineEnd c then .release (.literal .badChar)
    else if c == '\\' then .extend charEscape
    else .extend charFilled
  | charFilled =>
    if c == '\'' then .finish (.literal (recent.reverse[1]?.elim .badChar .char))
    else if isLineEnd c then .release (.literal .badChar)
    else .extend charOverfull
  | charEscape =>
    match resolveEscape c with
    | some value => .resolve value charFilled
    | none => if isLineEnd c then .release (.literal .badChar) else .extend charOverfull
  | charOverfull =>
    if c == '\'' then .finish (.literal .badChar)
    else if isLineEnd c then .release (.literal .badChar)
    else .extend charOverfull
  | string =>
    if c == '\\' then .extend stringEscape
    else if isLineEnd c then .release (.literal .badString)
    else if c == '"' then .finish (.literal (.string (.ofList (recent.reverse.drop 1))))
    else .extend string
  -- an escape outside the table stays in the string as it stands
  | stringEscape =>
    match resolveEscape c with
    | some value => .resolve value string
    | none => if isLineEnd c then .release (.literal .badString) else .extend string
  | comment => if isLineEnd c then .release .comment else .extend comment
  | blank => if isBlank c then .extend blank else .release .blank

end State

/-! ## The machine -/

/-- A state and the characters of the open token, the one read last in front. -/
structure Automaton where
  state : State
  recent : List Char

namespace Automaton

/-- The automaton with no token open. -/
def fresh : Automaton := ⟨.idle, []⟩

/-- The open token's characters in the order of the text; a resolved escape stands for its backslash. -/
def text (a : Automaton) : List Char := a.recent.reverse

def move (a : Automaton) (c : Char) : Move := a.state.move a.recent c

/-- Carries out a move on the character `c`, without the second reading of a released character. -/
def apply (a : Automaton) (c : Char) : Move → Automaton × List Token
  | .extend next => (⟨next, c :: a.recent⟩, [])
  | .resolve value next => (⟨next, value :: a.recent.tail⟩, [])
  | .finish token | .release token => (fresh, [token])
  | .skip => (a, [])

/-- Reads one character, and again if it releases the open token; answers with the tokens it completed. -/
def feed (a : Automaton) (c : Char) : Automaton × List Token :=
  match a.move c with
  | .release token => ((fresh.apply c (State.start c)).1, token :: (fresh.apply c (State.start c)).2)
  | m => a.apply c m

/-- One character completes two tokens at most. -/
theorem length_feed_le (a : Automaton) (c : Char) : (a.feed c).2.length ≤ 2 := by
  unfold feed
  split
  · cases State.start c <;> simp [apply]
  · cases a.move c <;> simp [apply]

/-- Reads a text. -/
def run (a : Automaton) : List Char → Automaton × List Token
  | [] => (a, [])
  | c :: cs =>
    let first := a.feed c
    let later := first.1.run cs
    (later.1, first.2 ++ later.2)

/-- A text is read in parts as it is read at once. -/
theorem run_append (a : Automaton) (s t : List Char) :
    a.run (s ++ t) = (((a.run s).1.run t).1, (a.run s).2 ++ ((a.run s).1.run t).2) := by
  induction s generalizing a with
  | nil => rfl
  | cons c cs ih => simp [run, ih]

end Automaton

/-- The tokens of exactly these characters: one that is still open at the end is not among them. -/
def tokensOf (text : List Char) : List Token := (Automaton.fresh.run text).2

/-- The tokens of a text, closed by the end mark. -/
def lex (text : List Char) : List Token := tokensOf (text ++ [endMark])

end Parlance
