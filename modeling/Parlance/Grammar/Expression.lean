import Parlance.Grammar.Outcome
import Parlance.Grammar.Priority
import Parlance.Tree

/-!
# Expressions

An expression is an operand and then, as long as an operator binds tighter than the **floor**, that operator and its right
operand, itself an expression above the operator's priority. So operators of one priority group from the left, and an
expression stops on the first operator that is not its own or on a token that ends expressions.
-/

namespace Parlance.Grammar

mutual

/-- An expression whose own operators bind tighter than `floor`. -/
def expression (floor : Nat) (c : Cursor) : Outcome Expr c.unread.length :=
  (operand c).bind fun left d h => operators floor left d h
termination_by (c.unread.length, 1)

/-- The operators that follow a complete left operand. -/
def operators {n : Nat} (floor : Nat) (left : Expr) (c : Cursor) (h : c.unread.length < n) : Outcome Expr n :=
  c.look fun
    | .operator o =>
      if floor < priority o then
        c.take fun _ d hd =>
          (expression (priority o) d).bind fun right e he =>
            operators floor (.binary o left right) e (Cursor.unread_length_two h hd he)
      else .matched left c h
    | t => if t.endsExpression then .matched left c h else .mismatched c
termination_by (c.unread.length, 0)

/-- A literal, an identifier, a call or an expression in parentheses. -/
def operand (c : Cursor) : Outcome Expr c.unread.length :=
  c.look fun
    | .literal l => c.take fun _ d h => .matched (.literal l) d h
    | .identifier name =>
      c.take fun
        | .leftParen, d, _ =>
          d.take fun _ e _ => (arguments e).bind fun as f _ => .matched (.call name as) f (by omega)
        | .operator _, d, h => .matched (.identifier name) d h
        | t, d, h => if t.endsExpression then .matched (.identifier name) d h else .mismatched d
    | .leftParen =>
      c.take fun _ d _ =>
        (expression lowestPriority d).bind fun inner e _ =>
          e.look fun
            | .rightParen => e.take fun _ f _ => .matched inner f (by omega)
            | _ => .mismatched e
    | _ => .mismatched c
termination_by (c.unread.length, 0)

/-- The arguments of a call, one at least, and the parenthesis behind them. -/
def arguments (c : Cursor) : Outcome (List Expr) c.unread.length :=
  (expression lowestPriority c).bind fun first d _ =>
    d.look fun
      | .comma => d.take fun _ e _ => (arguments e).bind fun rest f _ => .matched (first :: rest) f (by omega)
      | .rightParen => d.take fun _ e _ => .matched [first] e (by omega)
      | _ => .mismatched d
termination_by (c.unread.length, 2)

end

end Parlance.Grammar
