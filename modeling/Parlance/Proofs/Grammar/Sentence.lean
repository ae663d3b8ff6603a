import Parlance.Proofs.Grammar.Ahead
import Parlance.Proofs.Grammar.Spelling

/-!
# How tokens spell statements, functions and files

The grammar above expressions, as relations between tokens and trees. A **simple** statement is a declaration, a `return` or
an expression; a conditional holds blocks; the items of a block are line breaks, conditionals, and simple statements with a
line break or the closing brace right behind them. An **entity** of a file is a function, or a declaration with a closing
token right behind it; since that token belongs to what follows, `SpellsEntity` and `SpellsEntities` also see the rest.

* a statement, and so the content of a block, can only start with certain tokens (`SpellsSimple.head`, `SpellsItems.head`),
  none of which closes a block or goes on with a conditional.
-/

namespace Parlance.Grammar

/-! ## Statements -/

/-- The tokens that close an expression which nothing encloses, and with it a simple statement. -/
def closers : List Token := [.comma, .newLine, .rightParen, .rightCurl, .endOfInput]

theorem stops_lowest_iff {t : Token} : Stops lowestPriority t ↔ t ∈ closers := by
  constructor
  · intro h
    cases h with
    | operator hle => exact absurd hle (Nat.not_le.mpr (priority_pos _))
    | _ => simp [closers]
  · intro h
    simp only [closers, List.mem_cons, List.not_mem_nil, or_false] at h
    rcases h with rfl | rfl | rfl | rfl | rfl <;> constructor

/-- The tokens spell a statement that has no block in it. -/
inductive SpellsSimple : (w : List Token) → (s : Statement) → Prop
  | declaration {b : Binding} {name type : String} {w : List Token} {e : Expr} : Spells lowestPriority w e →
      SpellsSimple (.keyword (.binding b) :: .identifier name :: .colon :: .identifier type :: .operator "=" :: w)
        (.declaration b name type e)
  | returns {w : List Token} {e : Expr} : Spells lowestPriority w e → SpellsSimple (.keyword .returns :: w) (.returns e)
  | expression {w : List Token} {e : Expr} : Spells lowestPriority w e → SpellsSimple w (.expression e)

mutual

/-- The tokens spell a conditional; an alternative follows the closing brace at once. -/
inductive SpellsConditional : (w : List Token) → (s : Statement) → Prop
  | ifThen {v w : List Token} {e : Expr} {body : Block} : Spells lowestPriority v e → SpellsBlock w body →
      SpellsConditional (.keyword .condition :: .leftParen :: (v ++ .rightParen :: w)) (.ifThen e body)
  | ifElse {v w x : List Token} {e : Expr} {body alternative : Block} : Spells lowestPriority v e → SpellsBlock w body →
      SpellsBlock x alternative →
      SpellsConditional (.keyword .condition :: .leftParen :: (v ++ .rightParen :: (w ++ .keyword .otherwise :: x)))
        (.ifElse e body alternative)

/-- The tokens spell a block, braces included. -/
inductive SpellsBlock : (w : List Token) → (b : Block) → Prop
  | braces {w : List Token} {b : Block} : SpellsItems w b → SpellsBlock (.leftCurl :: (w ++ [.rightCurl])) b

/-- The tokens spell what stands between two braces. A simple statement has a line break or the brace right behind it. -/
inductive SpellsItems : (w : List Token) → (b : Block) → Prop
  | nil : SpellsItems [] []
  | newLine {w : List Token} {b : Block} : SpellsItems w b → SpellsItems (.newLine :: w) b
  | conditional {v w : List Token} {s : Statement} {b : Block} : SpellsConditional v s → SpellsItems w b →
      SpellsItems (v ++ w) (s :: b)
  | simple {v w : List Token} {s : Statement} {b : Block} : SpellsSimple v s → SpellsItems w b →
      (∀ t ∈ w.head?, t = .newLine) → SpellsItems (v ++ w) (s :: b)

end

/-! ## Functions -/

/-- The tokens spell parameters, one at least, with commas between them. -/
inductive SpellsParameters : (w : List Token) → (ps : List Parameter) → Prop
  | one {name type : String} : SpellsParameters [.identifier name, .colon, .identifier type] [⟨name, type⟩]
  | more {name type : String} {w : List Token} {ps : List Parameter} : SpellsParameters w ps →
      SpellsParameters (.identifier name :: .colon :: .identifier type :: .comma :: w) (⟨name, type⟩ :: ps)

/-- The tokens spell what stands between the parentheses of a signature. -/
inductive SpellsSignature : (w : List Token) → (ps : List Parameter) → Prop
  | empty : SpellsSignature [] []
  | listed {w : List Token} {ps : List Parameter} : SpellsParameters w ps → SpellsSignature w ps

/-- The tokens spell a function. Line breaks may stand in front of the return type and in front of the body. -/
inductive SpellsFunction : (w : List Token) → (f : Function) → Prop
  | intro {name type : String} {v w : List Token} {ps : List Parameter} {body : Block} (m n : Nat) : SpellsSignature v ps →
      SpellsBlock w body →
      SpellsFunction (.keyword .function :: .identifier name :: .leftParen ::
        (v ++ .rightParen :: .colon :: (lineBreaks m ++ .identifier type :: (lineBreaks n ++ w)))) ⟨name, ps, type, body⟩

/-! ## Files -/

/-- The tokens `w`, with `rest` right behind them, spell an entity. -/
inductive SpellsEntity : (w rest : List Token) → (e : Entity) → Prop
  | function {w rest : List Token} {f : Function} : SpellsFunction w f → SpellsEntity w rest (.function f)
  | declaration {b : Binding} {name type : String} {w rest : List Token} {v : Expr} {t : Token} :
      SpellsSimple w (.declaration b name type v) → t ∈ closers →
      SpellsEntity w (t :: rest) (.statement (.declaration b name type v))

/-- The tokens `w`, with `rest` right behind them, spell entities with line breaks around them. -/
inductive SpellsEntities : (w rest : List Token) → (es : List Entity) → Prop
  | nil {rest : List Token} : SpellsEntities [] rest []
  | newLine {w rest : List Token} {es : List Entity} : SpellsEntities w rest es → SpellsEntities (.newLine :: w) rest es
  | entity {v w rest : List Token} {e : Entity} {es : List Entity} : SpellsEntity v (w ++ rest) e →
      SpellsEntities w rest es → SpellsEntities (v ++ w) rest (e :: es)

/-- Another entity could be read behind line breaks at the start of these tokens. -/
def Continues (ts : List Token) : Prop := ∃ n v rest e, ts = lineBreaks n ++ (v ++ rest) ∧ SpellsEntity v rest e

/-! ## First tokens -/

/-- The tokens that a statement can start with. -/
def opensStatement : Token → Bool
  | .keyword (.binding _) | .keyword .returns | .keyword .condition => true
  | t => opensExpression t

theorem opensStatement_of_opensExpression {t : Token} (h : opensExpression t = true) : opensStatement t = true := by
  cases t with
  | keyword => cases h
  | _ => exact h

theorem SpellsSimple.head {w : List Token} {s : Statement} (h : SpellsSimple w s) :
    ∃ t ts, w = t :: ts ∧ opensStatement t = true := by
  cases h with
  | declaration => exact ⟨_, _, rfl, rfl⟩
  | returns => exact ⟨_, _, rfl, rfl⟩
  | expression hs =>
    obtain ⟨t, ts, hw, ht⟩ := hs.head
    exact ⟨t, ts, hw, opensStatement_of_opensExpression ht⟩

theorem SpellsConditional.head {w : List Token} {s : Statement} (h : SpellsConditional w s) :
    ∃ t ts, w = t :: ts ∧ opensStatement t = true := by
  cases h <;> exact ⟨_, _, rfl, rfl⟩

theorem SpellsItems.head {w : List Token} {b : Block} (h : SpellsItems w b) :
    ∀ t ∈ w.head?, t = .newLine ∨ opensStatement t = true := by
  cases h with
  | nil => simp
  | newLine => simp
  | conditional hs =>
    obtain ⟨t, ts, rfl, ht⟩ := hs.head
    simp [ht]
  | simple hs =>
    obtain ⟨t, ts, rfl, ht⟩ := hs.head
    simp [ht]

end Parlance.Grammar
