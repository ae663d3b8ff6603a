/-!
# The alphabet of program texts

Which characters begin, continue and end a token. Letters and digits are the ASCII ones; a character outside every class
below is text only inside a comment or a quoted literal, and stands for an unknown symbol anywhere else.
-/

namespace Parlance

/-- The mark that closes a text: it ends every open token except a run of operator symbols. -/
def endMark : Char := '\x00'

/-- The symbols that operators are made of. -/
def operatorSymbols : List Char := ['+', '-', '*', '/', '%', '=', '>', '<']

/-! ## Words and operators -/

def isLetter (c : Char) : Bool := c.isAlpha

theorem isLetter_iff {c : Char} : isLetter c = true ↔ 'A' ≤ c ∧ c ≤ 'Z' ∨ 'a' ≤ c ∧ c ≤ 'z' := by
  show (decide (c.val ≥ 'A'.val ∧ c.val ≤ 'Z'.val) || (decide (c.val ≥ 'a'.val) && decide (c.val ≤ 'z'.val))) = true ↔ _
  simp only [Bool.or_eq_true, Bool.and_eq_true, decide_eq_true_eq]
  exact Iff.rfl

def isDigit (c : Char) : Bool := c.isDigit

def isUnderscore (c : Char) : Bool := c == '_'

/-- A word starts with a letter or an underscore. -/
def isWordStart (c : Char) : Bool := isLetter c || isUnderscore c

/-- A word goes on with letters, digits and underscores. -/
def isWordPart (c : Char) : Bool := isLetter c || isDigit c || isUnderscore c

def isOperatorSymbol (c : Char) : Bool := operatorSymbols.contains c

/-! ## Numerals -/

def isBinaryDigit (c : Char) : Bool := c == '0' || c == '1'

def isHexadecimalDigit (c : Char) : Bool :=
  isDigit c || ('a' ≤ c && c ≤ 'f') || ('A' ≤ c && c ≤ 'F')

/-- The letter after a leading zero that makes a numeral binary. -/
def isBinaryMark (c : Char) : Bool := c == 'b' || c == 'B'

/-- The letter after a leading zero that makes a numeral hexadecimal. -/
def isHexadecimalMark (c : Char) : Bool := c == 'x' || c == 'X'

/-! ## Layout -/

/-- Spaces and tabs. A line break is a token of its own. -/
def isBlank (c : Char) : Bool := c == ' ' || c == '\t'

def isLineFeed (c : Char) : Bool := c == '\n'

def isCarriageReturn (c : Char) : Bool := c == '\r'

def isEndMark (c : Char) : Bool := c == endMark

/-- What no comment and no quoted literal runs past. -/
def isLineEnd (c : Char) : Bool := isLineFeed c || isEndMark c

end Parlance
