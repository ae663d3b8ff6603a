import Parlance.Grammar.Expression

/-!
# Statements, blocks and functions

A statement leaves the cursor on the first token that is not its own; a block leaves it on its closing brace. Inside a
block nothing but the statements themselves separates them, so a declaration, a `return` or an expression needs a line break
or the closing brace behind it, and a conditional needs nothing.

A function leaves the cursor on the closing brace of its body. Line breaks may stand in front of the return type and in
front of the body, and nowhere else in the signature.
-/

namespace Parlance.Grammar

/-! ## Statements -/

/-- A declaration of a value, from a cursor on its keyword. -/
def declaration (binding : Binding) (c : Cursor) : Outcome Statement c.unread.length :=
  c.expectName fun name c₁ _ =>
    c₁.expect .colon fun c₂ _ =>
      c₂.expectName fun type c₃ _ =>
        c₃.expect (.operator "=") fun c₄ _ =>
          c₄.take fun _ c₅ _ =>
            (expression lowestPriority c₅).bind fun value c₆ _ =>
              .matched (.declaration binding name type value) c₆ (by omega)

mutual

/-- A block, from a cursor on its opening brace. -/
def block (c : Cursor) : Outcome Block c.unread.length :=
  c.take fun _ d h => items d h
termination_by (c.unread.length, 0)

/-- The rest of a block. -/
def items {n : Nat} (c : Cursor) (h : c.unread.length < n) : Outcome Block n :=
  c.look fun
    | .rightCurl => .matched [] c h
    | .newLine => c.take fun _ d _ => items d (by omega)
    | _ =>
      (statement c).bind fun first d _ =>
        (items (n := n) d (by omega)).bind fun rest e he => .matched (first :: rest) e he
termination_by (c.unread.length, 2)

def statement (c : Cursor) : Outcome Statement c.unread.length :=
  c.look fun
    | .keyword (.binding b) => declaration b c
    | .keyword .returns =>
      c.take fun _ d _ =>
        (expression lowestPriority d).bind fun value e _ => .matched (.returns value) e (by omega)
    | .keyword .condition => conditional c
    | _ => (expression lowestPriority c).map .expression
termination_by (c.unread.length, 1)

/-- A conditional, from a cursor on its keyword. The alternative has to follow the closing brace on its line. -/
def conditional (c : Cursor) : Outcome Statement c.unread.length :=
  c.expect .leftParen fun c₁ _ =>
    (operand c₁).bind fun condition c₂ _ =>
      c₂.look fun
        | .leftCurl =>
          (block c₂).bind fun body c₃ _ =>
            c₃.take fun
              | .keyword .otherwise, c₄, _ =>
                c₄.expect .leftCurl fun c₅ _ =>
                  (block c₅).bind fun alternative c₆ _ =>
                    c₆.take fun _ c₇ _ => .matched (.ifElse condition body alternative) c₇ (by omega)
              | _, c₄, _ => .matched (.ifThen condition body) c₄ (by omega)
        | _ => .mismatched c₂
termination_by (c.unread.length, 0)

end

/-! ## Functions -/

/-- Parameters, one at least, and the parenthesis behind them, from a cursor on the name of the first. -/
def parameters (c : Cursor) : Outcome (List Parameter) c.unread.length :=
  c.look fun
    | .identifier name =>
      c.expect .colon fun c₁ h₁ =>
        c₁.expectName fun type c₂ h₂ =>
          c₂.take fun
            | .comma, c₃, _ =>
              c₃.take fun _ c₄ _ =>
                (parameters c₄).bind fun rest c₅ _ => .matched (⟨name, type⟩ :: rest) c₅ (by omega)
            | .rightParen, c₃, h₃ => .matched [⟨name, type⟩] c₃ (Cursor.unread_length_three h₁ h₂ h₃)
            | _, c₃, _ => .mismatched c₃
    | _ => .mismatched c
termination_by c.unread.length

/-- The parameters of a signature, none included, from a cursor on the opening parenthesis. -/
def signature (c : Cursor) : Outcome (List Parameter) c.unread.length :=
  c.take fun
    | .rightParen, d, h => .matched [] d h
    | _, d, _ => (parameters d).bind fun ps e _ => .matched ps e (by omega)

/-- A function, from a cursor on its keyword. -/
def function (c : Cursor) : Outcome Function c.unread.length :=
  c.expectName fun name c₁ _ =>
    c₁.expect .leftParen fun c₂ _ =>
      (signature c₂).bind fun ps c₃ _ =>
        c₃.expect .colon fun c₄ _ =>
          c₄.takeOverNewLines fun
            | .identifier type, c₅, _ =>
              c₅.takeOverNewLines fun
                | .leftCurl, c₆, _ =>
                  (block c₆).bind fun body c₇ _ => .matched ⟨name, ps, type, body⟩ c₇ (by omega)
                | _, c₆, _ => .mismatched c₆
            | _, c₅, _ => .mismatched c₅

end Parlance.Grammar
