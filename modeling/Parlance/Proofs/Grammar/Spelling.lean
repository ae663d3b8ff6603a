import Parlance.Grammar.Priority
import Parlance.Tree

/-!
# How tokens spell an expression

`Spells floor w e` says, without reference to a parser, that the tokens `w` are the expression `e`: an atom, or a binary
expression whose operator binds tighter than `floor`, with operands that again spell above a floor — the right one above
the operator's own priority, the left one above the priority just below it. So operators of one priority group from the
left. `Stops floor t` says that an expression above `floor` may end in front of the token `t`.

* no spelling is empty (`Spells.ne_nil`), and it starts with a literal, a name or a parenthesis (`Spells.head`);
* an expression that ends in front of a token does so at every higher floor (`Stops.mono`).
-/

namespace Parlance.Grammar

mutual

/-- The tokens `w` spell the expression `e`, whose own operators bind tighter than `floor`. -/
inductive Spells : (floor : Nat) → (w : List Token) → (e : Expr) → Prop
  | literal {floor : Nat} {l : Literal} : Spells floor [.literal l] (.literal l)
  | identifier {floor : Nat} {name : String} : Spells floor [.identifier name] (.identifier name)
  | call {floor : Nat} {name : String} {w : List Token} {as : List Expr} : SpellsAll w as →
      Spells floor (.identifier name :: .leftParen :: (w ++ [.rightParen])) (.call name as)
  | parens {floor : Nat} {w : List Token} {e : Expr} : Spells lowestPriority w e →
      Spells floor (.leftParen :: (w ++ [.rightParen])) e
  | binary {floor : Nat} {o : String} {v w : List Token} {l r : Expr} : floor < priority o →
      Spells (priority o - 1) v l → Spells (priority o) w r → Spells floor (v ++ .operator o :: w) (.binary o l r)

/-- The tokens `w` spell the arguments of a call, one at least, with commas between them. -/
inductive SpellsAll : (w : List Token) → (as : List Expr) → Prop
  | one {w : List Token} {a : Expr} : Spells lowestPriority w a → SpellsAll w [a]
  | more {v w : List Token} {a : Expr} {as : List Expr} : Spells lowestPriority v a → SpellsAll w as →
      SpellsAll (v ++ .comma :: w) (a :: as)

end

/-- An expression above `floor` may end in front of this token. -/
inductive Stops (floor : Nat) : Token → Prop
  | comma : Stops floor .comma
  | newLine : Stops floor .newLine
  | rightParen : Stops floor .rightParen
  | rightCurl : Stops floor .rightCurl
  | endOfInput : Stops floor .endOfInput
  | operator {o : String} : priority o ≤ floor → Stops floor (.operator o)

/-! ## Where expressions end -/

theorem Stops.of_endsExpression {floor : Nat} {t : Token} (h : t.endsExpression = true) : Stops floor t := by
  cases t with
  | comma => exact .comma
  | newLine => exact .newLine
  | rightParen => exact .rightParen
  | rightCurl => exact .rightCurl
  | endOfInput => exact .endOfInput
  | _ => cases h

theorem Stops.endsExpression {floor : Nat} {t : Token} (h : Stops floor t) (ho : ∀ o, t ≠ .operator o) :
    t.endsExpression = true := by
  cases h with
  | operator => exact absurd rfl (ho _)
  | _ => rfl

theorem Stops.mono {floor floor' : Nat} {t : Token} (h : Stops floor t) (hle : floor ≤ floor') : Stops floor' t := by
  cases h with
  | operator hp => exact .operator (Nat.le_trans hp hle)
  | _ => constructor

/-- Every operator binds tighter than the lowest floor. -/
theorem priority_pos (o : String) : 0 < priority o := by
  have listed : ∀ entry ∈ listedPriorities, 0 < entry.2 := by decide
  unfold priority
  cases h : listedPriorities.lookup o with
  | none => exact Nat.one_pos
  | some p =>
    obtain ⟨_, _, hl, -⟩ := List.lookup_eq_some_iff.mp h
    exact listed (o, p) (by simp [hl])

/-! ## The first token of a spelling -/

/-- The tokens that an expression can start with. -/
def opensExpression : Token → Bool
  | .literal _ | .identifier _ | .leftParen => true
  | _ => false

theorem Spells.head {floor : Nat} {w : List Token} {e : Expr} (h : Spells floor w e) :
    ∃ t ts, w = t :: ts ∧ opensExpression t = true := by
  induction h using Spells.rec (motive_2 := fun _ _ _ => True) with
  | literal => exact ⟨_, _, rfl, rfl⟩
  | identifier => exact ⟨_, _, rfl, rfl⟩
  | call => exact ⟨_, _, rfl, rfl⟩
  | parens => exact ⟨_, _, rfl, rfl⟩
  | binary _ _ _ ihl _ =>
    obtain ⟨t, ts, rfl, ht⟩ := ihl
    exact ⟨t, _, rfl, ht⟩
  | one => trivial
  | more => trivial

theorem Spells.ne_nil {floor : Nat} {w : List Token} {e : Expr} (h : Spells floor w e) : w ≠ [] := by
  obtain ⟨t, ts, rfl, -⟩ := h.head
  exact List.cons_ne_nil t ts

end Parlance.Grammar
