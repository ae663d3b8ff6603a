import Parlance.Grammar.Statement
import Parlance.Token.Automaton

/-!
# Files

A file is parsed as the longest list of entities from its start: the first token that begins no entity and the first
entity that does not parse both end it. A **reading** also tells how many tokens had been asked for when each entity was
complete, and whether an entity was begun and then given up.
-/

namespace Parlance

/-- Why the parser stopped. -/
inductive Ending where
  /-- There is no token, or it begins no entity. -/
  | finished
  /-- An entity was begun that does not parse. -/
  | truncated
  /-- The cursor was read before its first step. -/
  | unstarted
deriving DecidableEq

/-- An account of how a file was parsed. -/
structure Reading where
  /-- Each entity, with the number of tokens asked for when it was complete. -/
  entities : List (Entity × Nat)
  ending : Ending
  /-- The number of tokens asked for altogether. -/
  asked : Nat

namespace Reading

/-- The reading that begins with one more entity. -/
def cons (e : Entity) (asked : Nat) (r : Reading) : Reading := { r with entities := (e, asked) :: r.entities }

def file (r : Reading) : File := ⟨r.entities.map Prod.fst⟩

end Reading

namespace Grammar

/-- How a reading ends on an entity that gave no match. -/
def givenUp {α : Type} {n : Nat} (total : Nat) (o : Outcome α n) : Reading :=
  ⟨[], match o with
    | .unstarted => .unstarted
    | _ => .truncated, o.asked total⟩

/-- The entities from a cursor on, of `total` tokens. -/
def entities (total : Nat) (c : Cursor) : Reading :=
  match c.current with
  | none => ⟨[], .unstarted, 0⟩
  | some .newLine =>
    match h : c.advance with
    | none => ⟨[], .finished, total + 1⟩
    | some d => entities total d
  | some (.keyword (.binding b)) =>
    match declaration b c with
    | .matched s d _ => (entities total d).cons (.statement s) (total - d.unread.length)
    | o => givenUp total o
  | some (.keyword .function) =>
    match function c with
    | .matched f d _ =>
      -- without a token behind the closing brace there is nothing more to parse
      match h : d.advance with
      | none => Reading.cons (.function f) (total + 1) ⟨[], .finished, total + 1⟩
      | some e => (entities total e).cons (.function f) (total - e.unread.length)
    | o => givenUp total o
  | some _ => ⟨[], .finished, total - c.unread.length⟩
termination_by c.unread.length
decreasing_by
  · exact Cursor.unread_length_of_advance h
  · assumption
  · have := Cursor.unread_length_of_advance h; omega

end Grammar

/-! ## Lists of tokens -/

/-- The tokens that the grammar sees. -/
def significant (tokens : List Token) : List Token := tokens.filter (!·.isTrivia)

/-- Parses tokens as a file. -/
def Reading.ofTokens (tokens : List Token) : Reading :=
  let ts := significant tokens
  match (Cursor.before ts).advance with
  | none => ⟨[], .finished, 1⟩
  | some c => Grammar.entities ts.length c

def File.ofTokens (tokens : List Token) : File := (Reading.ofTokens tokens).file

/-- The outcome of parsing tokens as one expression; what follows it is not looked at. -/
def Expr.outcome (tokens : List Token) : Outcome Expr (significant tokens).length :=
  (Cursor.before (significant tokens)).take fun _ c _ =>
    (Grammar.expression lowestPriority c).bind fun e d _ =>
      .matched e d (by simp_all [Cursor.before]; omega)

def Expr.ofTokens? (tokens : List Token) : Option Expr := (Expr.outcome tokens).result?.map Prod.fst

/-! ## Texts -/

def File.ofText (text : List Char) : File := .ofTokens (lex text)

def Expr.ofText? (text : List Char) : Option Expr := Expr.ofTokens? (lex text)

end Parlance
