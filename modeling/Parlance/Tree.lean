import Parlance.Token

/-!
# Syntax trees

What a program text says once layout and parentheses are gone: a file is a list of entities, an entity declares a function
or is a statement, and statements hold expressions. Trees are plain data, and equality of trees is decidable
(`Expr.same_iff`, `Statement.same_iff`).
-/

namespace Parlance

/-! ## Expressions -/

inductive Expr where
  | literal (value : Literal)
  | identifier (name : String)
  | call (function : String) (arguments : List Expr)
  | binary (operator : String) (left right : Expr)

namespace Expr

mutual

/-- Whether two expressions are equal, part by part. -/
def same : Expr → Expr → Bool
  | literal a, literal b => a = b
  | identifier m, identifier n => m = n
  | call f as, call g bs => f = g && sameAll as bs
  | binary o l r, binary p m s => o = p && same l m && same r s
  | _, _ => false

def sameAll : List Expr → List Expr → Bool
  | [], [] => true
  | a :: as, b :: bs => same a b && sameAll as bs
  | _, _ => false

end

mutual

theorem same_iff : ∀ a b : Expr, same a b = true ↔ a = b
  | literal _, b => by cases b <;> simp [same]
  | identifier _, b => by cases b <;> simp [same]
  | call _ as, b => by cases b <;> simp [same, sameAll_iff as]
  | binary _ l r, b => by cases b <;> simp [same, same_iff l, same_iff r, and_assoc]

theorem sameAll_iff : ∀ as bs : List Expr, sameAll as bs = true ↔ as = bs
  | [], bs => by cases bs <;> simp [sameAll]
  | a :: as, bs => by cases bs <;> simp [sameAll, same_iff a, sameAll_iff as]

end

instance : DecidableEq Expr := fun a b => decidable_of_iff _ (same_iff a b)

end Expr

/-! ## Statements -/

inductive Statement where
  | declaration (binding : Binding) (name type : String) (value : Expr)
  | returns (value : Expr)
  | ifThen (condition : Expr) (body : List Statement)
  | ifElse (condition : Expr) (body alternative : List Statement)
  | expression (value : Expr)

/-- The statements between two braces. -/
abbrev Block := List Statement

namespace Statement

mutual

/-- Whether two statements are equal, part by part. -/
def same : Statement → Statement → Bool
  | declaration b n t v, declaration c m u w => b = c && n = m && t = u && v = w
  | returns v, returns w => v = w
  | ifThen c b, ifThen d e => c = d && sameAll b e
  | ifElse c b a, ifElse d e f => c = d && sameAll b e && sameAll a f
  | expression v, expression w => v = w
  | _, _ => false

def sameAll : List Statement → List Statement → Bool
  | [], [] => true
  | s :: ss, t :: ts => same s t && sameAll ss ts
  | _, _ => false

end

mutual

theorem same_iff : ∀ s t : Statement, same s t = true ↔ s = t
  | declaration .., t => by cases t <;> simp [same, and_assoc]
  | returns _, t => by cases t <;> simp [same]
  | ifThen _ b, t => by cases t <;> simp [same, sameAll_iff b]
  | ifElse _ b a, t => by cases t <;> simp [same, sameAll_iff b, sameAll_iff a, and_assoc]
  | expression _, t => by cases t <;> simp [same]

theorem sameAll_iff : ∀ ss ts : List Statement, sameAll ss ts = true ↔ ss = ts
  | [], ts => by cases ts <;> simp [sameAll]
  | s :: ss, ts => by cases ts <;> simp [sameAll, same_iff s, sameAll_iff ss]

end

instance : DecidableEq Statement := fun s t => decidable_of_iff _ (same_iff s t)

end Statement

/-! ## Files -/

structure Parameter where
  name : String
  type : String
deriving DecidableEq

structure Function where
  name : String
  parameters : List Parameter
  returnType : String
  body : Block
deriving DecidableEq

inductive Entity where
  | function (declared : Function)
  | statement (content : Statement)
deriving DecidableEq

/-- The entities of one source file, in the order of the text. -/
structure File where
  entities : List Entity
deriving DecidableEq

end Parlance
