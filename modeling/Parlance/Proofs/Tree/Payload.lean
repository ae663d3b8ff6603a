import Parlance.Tree

/-!
# Trees with other literals

The same tokens and trees with each literal replaced by its image: nothing else of them changes. Replacing every literal by
itself changes nothing at all (`Entity.mapLiterals_id`).
-/

namespace Parlance

def Token.mapLiteral (f : Literal → Literal) : Token → Token
  | literal l => literal (f l)
  | t => t

/-- Where a token is no literal, it is only the image of itself. -/
theorem Token.mapLiteral_eq_iff {f : Literal → Literal} {t u : Token} (ht : ∀ l, t ≠ literal l) :
    u.mapLiteral f = t ↔ u = t := by
  cases u with
  | literal l => exact ⟨fun h => absurd h.symm (ht _), fun h => absurd h.symm (ht _)⟩
  | _ => exact Iff.rfl

/-! ## Expressions -/

namespace Expr

mutual

def mapLiterals (f : Literal → Literal) : Expr → Expr
  | literal l => literal (f l)
  | identifier name => identifier name
  | call function as => call function (mapAllLiterals f as)
  | binary o l r => binary o (mapLiterals f l) (mapLiterals f r)

def mapAllLiterals (f : Literal → Literal) : List Expr → List Expr
  | [] => []
  | a :: as => mapLiterals f a :: mapAllLiterals f as

end

mutual

theorem mapLiterals_id : ∀ e : Expr, e.mapLiterals id = e
  | literal _ => rfl
  | identifier _ => rfl
  | call _ as => by rw [mapLiterals, mapAllLiterals_id as]
  | binary _ l r => by rw [mapLiterals, mapLiterals_id l, mapLiterals_id r]

theorem mapAllLiterals_id : ∀ as : List Expr, mapAllLiterals id as = as
  | [] => rfl
  | a :: as => by rw [mapAllLiterals, mapLiterals_id a, mapAllLiterals_id as]

end

end Expr

/-! ## Statements -/

namespace Statement

mutual

def mapLiterals (f : Literal → Literal) : Statement → Statement
  | declaration b name type v => declaration b name type (v.mapLiterals f)
  | returns v => returns (v.mapLiterals f)
  | ifThen c body => ifThen (c.mapLiterals f) (mapAllLiterals f body)
  | ifElse c body alternative => ifElse (c.mapLiterals f) (mapAllLiterals f body) (mapAllLiterals f alternative)
  | expression v => expression (v.mapLiterals f)

def mapAllLiterals (f : Literal → Literal) : Block → Block
  | [] => []
  | s :: ss => mapLiterals f s :: mapAllLiterals f ss

end

mutual

theorem mapLiterals_id : ∀ s : Statement, s.mapLiterals id = s
  | declaration _ _ _ v => by rw [mapLiterals, v.mapLiterals_id]
  | returns v => by rw [mapLiterals, v.mapLiterals_id]
  | ifThen c body => by rw [mapLiterals, c.mapLiterals_id, mapAllLiterals_id body]
  | ifElse c body alternative => by
    rw [mapLiterals, c.mapLiterals_id, mapAllLiterals_id body, mapAllLiterals_id alternative]
  | expression v => by rw [mapLiterals, v.mapLiterals_id]

theorem mapAllLiterals_id : ∀ b : Block, mapAllLiterals id b = b
  | [] => rfl
  | s :: ss => by rw [mapAllLiterals, mapLiterals_id s, mapAllLiterals_id ss]

end

end Statement

/-! ## Files -/

def Function.mapLiterals (f : Literal → Literal) (d : Function) : Function :=
  { d with body := Statement.mapAllLiterals f d.body }

def Entity.mapLiterals (f : Literal → Literal) : Entity → Entity
  | function d => function (d.mapLiterals f)
  | statement s => statement (s.mapLiterals f)

def File.mapLiterals (f : Literal → Literal) (file : File) : File := ⟨file.entities.map (Entity.mapLiterals f)⟩

theorem Entity.mapLiterals_id (e : Entity) : e.mapLiterals id = e := by
  cases e with
  | function d => rw [mapLiterals, Function.mapLiterals, Statement.mapAllLiterals_id]
  | statement s => rw [mapLiterals, s.mapLiterals_id]

end Parlance
