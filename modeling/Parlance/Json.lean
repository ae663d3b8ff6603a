import Parlance.Text.Numeral

/-!
# JSON values and their text

Values are written in one of two layouts. **Compact** text has no white space. **Pretty** text puts every item and every
member on a line of its own, two spaces deeper than what holds it; an empty array or object stays on one line. Members
keep the order in which they are given.
-/

namespace Parlance

inductive Json where
  | number (value : Nat)
  | string (value : String)
  | array (items : List Json)
  | object (members : List (String × Json))

namespace Json

/-! ## Strings -/

/-- A hexadecimal digit in lower case. -/
def hexDigit (n : Nat) : Char := (Radix.glyph n).toLower

/-- A character as it stands in a JSON string: quote, backslash and control characters are escaped, all others stand as
they are. -/
def escaped (c : Char) : List Char :=
  if c = '"' then ['\\', '"']
  else if c = '\\' then ['\\', '\\']
  else if c = '\x08' then ['\\', 'b']
  else if c = '\x0c' then ['\\', 'f']
  else if c = '\n' then ['\\', 'n']
  else if c = '\r' then ['\\', 'r']
  else if c = '\t' then ['\\', 't']
  else if c.toNat < 0x20 then ['\\', 'u', '0', '0', hexDigit (c.toNat / 16), hexDigit (c.toNat % 16)]
  else [c]

/-- A string in quotes, in front of `rest`. -/
def stringThen (s : String) (rest : List Char) : List Char :=
  '"' :: s.toList.foldr (fun c tail => escaped c ++ tail) ('"' :: rest)

/-! ## Layouts -/

inductive Layout where
  | compact
  | pretty

namespace Layout

/-- The break before an item at a depth, in front of `rest`. -/
def breakThen (depth : Nat) (rest : List Char) : Layout → List Char
  | compact => rest
  | pretty => '\n' :: (List.replicate (2 * depth) ' ' ++ rest)

/-- What stands between a member's name and its value, in front of `rest`. -/
def colonThen (rest : List Char) : Layout → List Char
  | compact => ':' :: rest
  | pretty => ':' :: ' ' :: rest

end Layout

/-! ## Values -/

mutual

/-- A value that stands at a depth, in front of `rest`. -/
def writeThen (layout : Layout) (depth : Nat) : Json → List Char → List Char
  | number n, rest => Radix.decimal.digitsThen n rest
  | string s, rest => stringThen s rest
  | array [], rest => '[' :: ']' :: rest
  | array (i :: is), rest =>
    '[' :: layout.breakThen (depth + 1) (writeThen layout (depth + 1) i
      (itemsThen layout (depth + 1) is (layout.breakThen depth (']' :: rest))))
  | object [], rest => '{' :: '}' :: rest
  | object ((k, v) :: ms), rest =>
    '{' :: layout.breakThen (depth + 1) (stringThen k (layout.colonThen (writeThen layout (depth + 1) v
      (membersThen layout (depth + 1) ms (layout.breakThen depth ('}' :: rest))))))

/-- The items after the first. -/
def itemsThen (layout : Layout) (depth : Nat) : List Json → List Char → List Char
  | [], rest => rest
  | i :: is, rest => ',' :: layout.breakThen depth (writeThen layout depth i (itemsThen layout depth is rest))

/-- The members after the first. -/
def membersThen (layout : Layout) (depth : Nat) : List (String × Json) → List Char → List Char
  | [], rest => rest
  | (k, v) :: ms, rest =>
    ',' :: layout.breakThen depth (stringThen k (layout.colonThen (writeThen layout depth v
      (membersThen layout depth ms rest))))

end

/-- The text of a value. -/
def write (layout : Layout) (j : Json) : List Char := j.writeThen layout 0 []

end Json

end Parlance
