import Parlance.Token

/-!
# How tightly operators bind

Operators of a higher priority bind tighter; operators of one priority group from the left. Any run of operator symbols is
an operator: one that the table does not list binds like an assignment.
-/

namespace Parlance

/-- The operators with a priority of their own. -/
def listedPriorities : List (String × Nat) := [
  ("=", 1),
  (">", 2), ("<", 2), (">=", 2), ("<=", 2), ("==", 2), ("!=", 2),
  ("+", 3), ("-", 3),
  ("*", 4), ("/", 4), ("%", 4)]

def priority (operator : String) : Nat := (listedPriorities.lookup operator).getD 1

/-- Below every operator. -/
def lowestPriority : Nat := 0

/-- The tokens that may stand behind a complete expression, apart from operators. -/
def Token.endsExpression : Token → Bool
  | comma | newLine | rightParen | rightCurl | endOfInput => true
  | _ => false

end Parlance
