import Parlance.Text.Numeral
import Parlance.Text.Unprintable

/-!
# Quoted text for display

A text between quotes on one line of visible characters: the quote in use, the backslash, tab, line breaks and the end mark
are escaped by a letter, and every other unprintable character by its number.
-/

namespace Parlance

/-- A character by its number, in lower-case hexadecimal without leading zeros. -/
def numbered (c : Char) : List Char :=
  '\\' :: 'u' :: '{' :: (Radix.hexadecimal.digits c.toNat).map Char.toLower ++ ['}']

/-- A character as it stands between two `quote`s. -/
def displayed (quote c : Char) : List Char :=
  if c = '\x00' then ['\\', '0']
  else if c = '\t' then ['\\', 't']
  else if c = '\n' then ['\\', 'n']
  else if c = '\r' then ['\\', 'r']
  else if c = '\\' ∨ c = quote then ['\\', c]
  else if isUnprintable c then numbered c
  else [c]

def quoted (quote : Char) (text : List Char) : List Char :=
  quote :: text.flatMap (displayed quote) ++ [quote]

end Parlance
