import Parlance.Text.Numeral

/-!
# Tokens

The words, signs and literals of a program text. A malformed quoted literal is a literal as well, so that splitting a text
never fails; a token holds no reference back into the text.
-/

namespace Parlance

inductive Literal where
  | integer (radix : Radix) (value : UInt64)
  | string (value : String)
  /-- A string without its closing quote on the same line. -/
  | badString
  | char (value : Char)
  /-- A character literal that is empty, too long or without its closing quote on the same line. -/
  | badChar
deriving DecidableEq

/-! ## Reserved words -/

/-- Whether a declared name can be assigned again. -/
inductive Binding where
  | constant
  | mutable
deriving DecidableEq

inductive Keyword where
  | function
  | returns
  | condition
  | otherwise
  | binding (kind : Binding)
deriving DecidableEq

namespace Keyword

def all : List Keyword := [function, returns, condition, otherwise, binding .constant, binding .mutable]

def spelling : Keyword → String
  | function => "fun"
  | returns => "return"
  | condition => "if"
  | otherwise => "else"
  | binding .constant => "val"
  | binding .mutable => "var"

/-- The keyword that a word is reserved for. -/
def ofSpelling? (word : String) : Option Keyword := all.find? (·.spelling = word)

theorem mem_all (k : Keyword) : k ∈ all := by
  rcases k with _ | _ | _ | _ | (_ | _) <;> decide

theorem spelling_inj {j k : Keyword} (h : j.spelling = k.spelling) : j = k := by
  revert h
  rcases j with _ | _ | _ | _ | (_ | _) <;> rcases k with _ | _ | _ | _ | (_ | _) <;> decide

theorem ofSpelling?_eq_some_iff {word : String} {k : Keyword} : ofSpelling? word = some k ↔ k.spelling = word := by
  constructor
  · intro h
    simpa using List.find?_some h
  · rintro rfl
    cases h : ofSpelling? k.spelling with
    | none => simpa using List.find?_eq_none.mp h k (mem_all k)
    | some j => exact congrArg some (spelling_inj (by simpa using List.find?_some h))

end Keyword

/-! ## Tokens -/

inductive Token where
  | identifier (name : String)
  /-- A run of operator symbols. Whether there is such an operator is not the token's concern. -/
  | operator (symbols : String)
  | literal (value : Literal)
  | keyword (word : Keyword)
  | leftParen
  | rightParen
  | leftCurl
  | rightCurl
  | colon
  | comma
  | newLine
  | blank
  /-- From `#` to the end of the line; the text itself is not kept. -/
  | comment
  | unknown
  | endOfInput
deriving DecidableEq

namespace Token

/-- A whole word is a keyword if it is reserved, and an identifier otherwise. -/
def ofWord (word : String) : Token :=
  match Keyword.ofSpelling? word with
  | some k => .keyword k
  | none => .identifier word

/-- Tokens without grammatical meaning. -/
def isTrivia : Token → Bool
  | blank | comment | unknown => true
  | _ => false

/-- The keywords that open a declaration of a value. -/
def isBinding : Token → Bool
  | keyword (.binding _) => true
  | _ => false

end Token

end Parlance
