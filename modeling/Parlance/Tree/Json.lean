import Parlance.Json
import Parlance.Tree

/-!
# Trees as JSON

Every entity, statement, expression and literal is an object whose first member, `type`, names its kind. Blocks, lists of
arguments and parameters are objects without a kind. Malformed literals have no value.
-/

namespace Parlance

/-- A list as it stands in trees: an object around the array, without a kind. -/
def Json.wrapped (name : String) (items : List Json) : Json := .object [(name, .array items)]

open Json (number string array object wrapped)

/-! ## Expressions -/

/-- The kind of a literal in trees. -/
def Literal.kind : Literal → String
  | integer .binary _ => "BinaryLiteral"
  | integer .decimal _ => "DecimalLiteral"
  | integer .hexadecimal _ => "HexadecimalLiteral"
  | .string _ => "StringLiteral"
  | badString => "BadStringLiteral"
  | char _ => "CharLiteral"
  | badChar => "BadCharLiteral"

def Literal.value? : Literal → Option Json
  | integer _ v => some (number v.toNat)
  | .string s => some (.string s)
  | badString => none
  | char c => some (.string (.ofList [c]))
  | badChar => none

def Literal.toJson (l : Literal) : Json :=
  object (("type", .string l.kind) :: match l.value? with
    | some v => [("value", v)]
    | none => [])

mutual

def Expr.toJson : Expr → Json
  | .call f as =>
    object [("type", string "Function call"), ("function", string f),
      ("arguments", wrapped "arguments" (Expr.allToJson as))]
  | .binary o l r =>
    object [("type", string "Binary operator expression"), ("operator", string o),
      ("leftOperand", l.toJson), ("rightOperand", r.toJson)]
  | .literal l => object [("type", string "Literal expression"), ("literal", l.toJson)]
  | .identifier n => object [("type", string "Identifier expression"), ("name", string n)]

def Expr.allToJson : List Expr → List Json
  | [] => []
  | e :: es => e.toJson :: Expr.allToJson es

end

/-! ## Statements -/

mutual

def Statement.toJson : Statement → Json
  | .declaration .mutable n t v =>
    object [("type", string "Variable declaration"), ("name", string n), ("varType", string t), ("value", v.toJson)]
  | .declaration .constant n t v =>
    object [("type", string "Constant declaration"), ("name", string n), ("valType", string t), ("value", v.toJson)]
  | .returns v => object [("type", string "Return statement"), ("value", v.toJson)]
  | .ifThen c b =>
    object [("type", string "If statement"), ("condition", c.toJson),
      ("body", wrapped "statements" (Statement.allToJson b))]
  | .ifElse c b a =>
    object [("type", string "If else statement"), ("condition", c.toJson),
      ("bodyTrue", wrapped "statements" (Statement.allToJson b)),
      ("bodyFalse", wrapped "statements" (Statement.allToJson a))]
  | .expression e => e.toJson

def Statement.allToJson : List Statement → List Json
  | [] => []
  | s :: ss => s.toJson :: Statement.allToJson ss

end

def Block.toJson (b : Block) : Json := wrapped "statements" (Statement.allToJson b)

/-! ## Files -/

def Parameter.toJson (p : Parameter) : Json := object [("name", string p.name), ("type", string p.type)]

def Function.toJson (f : Function) : Json :=
  object [("type", string "Function declaration"), ("name", string f.name),
    ("arguments", wrapped "arguments" (f.parameters.map Parameter.toJson)),
    ("returnType", string f.returnType), ("body", f.body.toJson)]

def Entity.toJson : Entity → Json
  | .function f => f.toJson
  | .statement s => s.toJson

def File.toJson (f : File) : Json :=
  object [("type", string "FileNode"), ("entities", array (f.entities.map Entity.toJson))]

/-- The text of a syntax tree file: the tree in the pretty layout and a line break. -/
def File.text (f : File) : List Char := f.toJson.writeThen .pretty 0 ['\n']

end Parlance
