import Parlance.Proofs.Token.Proper
import Parlance.Tree

/-!
# Well-formed trees

Not every tree is written by some text. A **well-formed** one has names where names stand, operators made of operator
symbols, proper literals, at least one argument in each call, and no entities but functions and declarations.

An unclosed string takes the rest of its line along. It is **closed** off by nothing, so it can only be the last thing on
a line: the rightmost leaf of a value that a statement declares, returns or consists of.
-/

namespace Parlance

/-! ## Expressions -/

namespace Expr

mutual

def WellFormed : Expr → Prop
  | literal l => l.Proper
  | identifier name => IsName name
  | call f as => IsName f ∧ as ≠ [] ∧ AllWellFormed as
  | binary o l r => IsOperator o ∧ l.WellFormed ∧ r.WellFormed

def AllWellFormed : List Expr → Prop
  | [] => True
  | a :: as => a.WellFormed ∧ AllWellFormed as

end

mutual

/-- No string in the expression is unclosed. -/
def Closed : Expr → Prop
  | literal l => l ≠ .badString
  | identifier _ => True
  | call _ as => AllClosed as
  | binary _ l r => l.Closed ∧ r.Closed

def AllClosed : List Expr → Prop
  | [] => True
  | a :: as => a.Closed ∧ AllClosed as

end

/-- No string in the expression is unclosed, except perhaps its rightmost leaf. -/
def ClosedButLast : Expr → Prop
  | literal _ | identifier _ => True
  | call _ as => AllClosed as
  | binary _ l r => l.Closed ∧ r.ClosedButLast

theorem Closed.butLast : ∀ {e : Expr}, e.Closed → e.ClosedButLast
  | literal _, _ => trivial
  | identifier _, _ => trivial
  | call _ _, h => h
  | binary _ _ _, h => ⟨h.1, Closed.butLast h.2⟩

end Expr

/-! ## Statements -/

namespace Statement

mutual

def WellFormed : Statement → Prop
  | declaration _ name type v => IsName name ∧ IsName type ∧ v.WellFormed
  | returns v => v.WellFormed
  | ifThen c b => c.WellFormed ∧ AllWellFormed b
  | ifElse c b a => c.WellFormed ∧ AllWellFormed b ∧ AllWellFormed a
  | expression v => v.WellFormed

def AllWellFormed : List Statement → Prop
  | [] => True
  | s :: ss => s.WellFormed ∧ AllWellFormed ss

end

mutual

/-- The values that the statement declares, returns or consists of all have the property `P`, and its conditions are
closed. -/
def Holds (P : Expr → Prop) : Statement → Prop
  | declaration _ _ _ v => P v
  | returns v => P v
  | ifThen c b => c.Closed ∧ AllHold P b
  | ifElse c b a => c.Closed ∧ AllHold P b ∧ AllHold P a
  | expression v => P v

def AllHold (P : Expr → Prop) : List Statement → Prop
  | [] => True
  | s :: ss => s.Holds P ∧ AllHold P ss

end

end Statement

/-! ## Files -/

def Parameter.WellFormed (p : Parameter) : Prop := IsName p.name ∧ IsName p.type

structure Function.WellFormed (f : Function) : Prop where
  name : IsName f.name
  parameters : ∀ p ∈ f.parameters, p.WellFormed
  returnType : IsName f.returnType
  body : Statement.AllWellFormed f.body

namespace Entity

/-- An entity is a function or a declaration. -/
def WellFormed : Entity → Prop
  | function f => f.WellFormed
  | statement (.declaration b name type v) => (Statement.declaration b name type v).WellFormed
  | statement _ => False

def Holds (P : Expr → Prop) : Entity → Prop
  | function f => Statement.AllHold P f.body
  | statement s => s.Holds P

end Entity

namespace File

def WellFormed (f : File) : Prop := ∀ e ∈ f.entities, e.WellFormed

/-- No string in the file is unclosed. -/
def Closed (f : File) : Prop := ∀ e ∈ f.entities, e.Holds Expr.Closed

/-- A string in the file is unclosed only as the rightmost leaf of a value that a statement declares, returns or
consists of. -/
def ClosedButLast (f : File) : Prop := ∀ e ∈ f.entities, e.Holds Expr.ClosedButLast

end File

end Parlance
