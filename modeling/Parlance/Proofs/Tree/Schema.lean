import Parlance.Proofs.Json.Reader
import Parlance.Tree.Json

/-!
# Trees are read back from JSON

A reader for the JSON of trees. The member `type` tells which kind of node an object is, and each kind has its own members in
a fixed order; what has none of the kinds of statements is an expression. Nothing is asked of the trees: names and operators
may be any strings, a call may be without arguments, and any statement may stand at the top of a file.

* `File.ofJson?_toJson`: a tree is read back from its JSON value;
* `File.read?_text`: and from its text in both layouts, so no two trees have one text.
-/

namespace Parlance

open Json (number string array object wrapped)

/-! ## Expressions -/

/-- The value of an integer literal, of 64 bits. -/
def Json.word? : Json → Option UInt64
  | number n => if n < UInt64.size then some (.ofNat n) else none
  | _ => none

def Literal.ofJson? : Json → Option Literal
  | object [("type", Json.string "BinaryLiteral"), ("value", v)] => (Json.word? v).map (.integer .binary)
  | object [("type", Json.string "DecimalLiteral"), ("value", v)] => (Json.word? v).map (.integer .decimal)
  | object [("type", Json.string "HexadecimalLiteral"), ("value", v)] => (Json.word? v).map (.integer .hexadecimal)
  | object [("type", Json.string "StringLiteral"), ("value", Json.string s)] => some (.string s)
  | object [("type", Json.string "BadStringLiteral")] => some .badString
  | object [("type", Json.string "CharLiteral"), ("value", Json.string s)] =>
    match s.toList with
    | [c] => some (.char c)
    | _ => none
  | object [("type", Json.string "BadCharLiteral")] => some .badChar
  | _ => none

mutual

def Expr.ofJson? : Json → Option Expr
  | object [("type", string "Function call"), ("function", string f),
      ("arguments", object [("arguments", array as)])] => (Expr.allOfJson? as).map (.call f)
  | object [("type", string "Binary operator expression"), ("operator", string o),
      ("leftOperand", l), ("rightOperand", r)] =>
    (Expr.ofJson? l).bind fun l => (Expr.ofJson? r).map (.binary o l)
  | object [("type", string "Literal expression"), ("literal", l)] => (Literal.ofJson? l).map .literal
  | object [("type", string "Identifier expression"), ("name", string n)] => some (.identifier n)
  | _ => none

def Expr.allOfJson? : List Json → Option (List Expr)
  | [] => some []
  | j :: js => (Expr.ofJson? j).bind fun e => (Expr.allOfJson? js).map (e :: ·)

end

theorem Json.word?_toNat (v : UInt64) : Json.word? (number v.toNat) = some v := by
  rw [Json.word?, if_pos v.toNat_lt, UInt64.ofNat_toNat]

theorem Literal.ofJson?_toJson (l : Literal) : Literal.ofJson? l.toJson = some l := by
  cases l with
  | integer r v =>
    have hv := Json.word?_toNat v
    cases r <;> simp [Literal.toJson, Literal.kind, Literal.value?, Literal.ofJson?, hv]
  | string s => rfl
  | badString => rfl
  | char c => simp [Literal.toJson, Literal.kind, Literal.value?, Literal.ofJson?]
  | badChar => rfl

mutual

theorem Expr.ofJson?_toJson : ∀ e : Expr, Expr.ofJson? e.toJson = some e
  | .literal l => by simp [Expr.toJson, Expr.ofJson?, Literal.ofJson?_toJson l]
  | .identifier n => by simp [Expr.toJson, Expr.ofJson?]
  | .call f as => by simp [Expr.toJson, Expr.ofJson?, wrapped, Expr.allOfJson?_allToJson as]
  | .binary o l r => by simp [Expr.toJson, Expr.ofJson?, Expr.ofJson?_toJson l, Expr.ofJson?_toJson r]

theorem Expr.allOfJson?_allToJson : ∀ es : List Expr, Expr.allOfJson? (Expr.allToJson es) = some es
  | [] => by simp [Expr.allToJson, Expr.allOfJson?]
  | e :: es => by simp [Expr.allToJson, Expr.allOfJson?, Expr.ofJson?_toJson e, Expr.allOfJson?_allToJson es]

end

/-! ## Statements -/

mutual

def Statement.ofJson? : Json → Option Statement
  | object [("type", string "Variable declaration"), ("name", string n), ("varType", string t), ("value", v)] =>
    (Expr.ofJson? v).map (.declaration .mutable n t)
  | object [("type", string "Constant declaration"), ("name", string n), ("valType", string t), ("value", v)] =>
    (Expr.ofJson? v).map (.declaration .constant n t)
  | object [("type", string "Return statement"), ("value", v)] => (Expr.ofJson? v).map .returns
  | object [("type", string "If statement"), ("condition", c), ("body", object [("statements", array b)])] =>
    (Expr.ofJson? c).bind fun c => (Statement.allOfJson? b).map (.ifThen c)
  | object [("type", string "If else statement"), ("condition", c), ("bodyTrue", object [("statements", array b)]),
      ("bodyFalse", object [("statements", array a)])] =>
    (Expr.ofJson? c).bind fun c => (Statement.allOfJson? b).bind fun b => (Statement.allOfJson? a).map (.ifElse c b)
  | j => (Expr.ofJson? j).map .expression

def Statement.allOfJson? : List Json → Option (List Statement)
  | [] => some []
  | j :: js => (Statement.ofJson? j).bind fun s => (Statement.allOfJson? js).map (s :: ·)

end

/-- No expression has the kind of a statement. -/
theorem Statement.ofJson?_expr (e : Expr) : Statement.ofJson? e.toJson = (Expr.ofJson? e.toJson).map .expression := by
  cases e <;> simp [Expr.toJson, Statement.ofJson?]

mutual

theorem Statement.ofJson?_toJson : ∀ s : Statement, Statement.ofJson? s.toJson = some s
  | .declaration b n t v => by cases b <;> simp [Statement.toJson, Statement.ofJson?, Expr.ofJson?_toJson v]
  | .returns v => by simp [Statement.toJson, Statement.ofJson?, Expr.ofJson?_toJson v]
  | .ifThen c b => by
    simp [Statement.toJson, Statement.ofJson?, wrapped, Expr.ofJson?_toJson c, Statement.allOfJson?_allToJson b]
  | .ifElse c b a => by
    simp [Statement.toJson, Statement.ofJson?, wrapped, Expr.ofJson?_toJson c, Statement.allOfJson?_allToJson b,
      Statement.allOfJson?_allToJson a]
  | .expression e => by rw [Statement.toJson, Statement.ofJson?_expr, Expr.ofJson?_toJson, Option.map_some]

theorem Statement.allOfJson?_allToJson : ∀ ss : List Statement, Statement.allOfJson? (Statement.allToJson ss) = some ss
  | [] => by simp [Statement.allToJson, Statement.allOfJson?]
  | s :: ss => by
    simp [Statement.allToJson, Statement.allOfJson?, Statement.ofJson?_toJson s, Statement.allOfJson?_allToJson ss]

end

/-! ## Files -/

def Parameter.ofJson? : Json → Option Parameter
  | object [("name", string n), ("type", string t)] => some ⟨n, t⟩
  | _ => none

def Function.ofJson? : Json → Option Function
  | object [("type", string "Function declaration"), ("name", string n),
      ("arguments", object [("arguments", array ps)]), ("returnType", string t),
      ("body", object [("statements", array b)])] =>
    (ps.mapM Parameter.ofJson?).bind fun ps => (Statement.allOfJson? b).map fun b => ⟨n, ps, t, b⟩
  | _ => none

def Entity.ofJson? (j : Json) : Option Entity :=
  match Function.ofJson? j with
  | some f => some (.function f)
  | none => (Statement.ofJson? j).map .statement

def File.ofJson? : Json → Option File
  | object [("type", string "FileNode"), ("entities", array es)] => (es.mapM Entity.ofJson?).map File.mk
  | _ => none

/-- Items that are read back one by one are read back together. -/
theorem mapM_ofJson? {α : Type} {ofJson? : Json → Option α} {toJson : α → Json} (h : ∀ a, ofJson? (toJson a) = some a)
    (as : List α) : (as.map toJson).mapM ofJson? = some as := by
  induction as with
  | nil => rfl
  | cons a as ih => simp [h a, ih]

theorem Parameter.ofJson?_toJson (p : Parameter) : Parameter.ofJson? p.toJson = some p := rfl

theorem Function.ofJson?_toJson (f : Function) : Function.ofJson? f.toJson = some f := by
  have hps := mapM_ofJson? Parameter.ofJson?_toJson f.parameters
  have hb := Statement.allOfJson?_allToJson f.body
  simp [Function.toJson, Function.ofJson?, Block.toJson, wrapped, hps, hb]

/-- No statement has the kind of a function. -/
theorem Function.ofJson?_statement (s : Statement) : Function.ofJson? s.toJson = none := by
  cases s with
  | declaration b => cases b <;> simp [Statement.toJson, Function.ofJson?]
  | expression e => cases e <;> simp [Statement.toJson, Expr.toJson, Function.ofJson?]
  | _ => simp [Statement.toJson, Function.ofJson?]

theorem Entity.ofJson?_toJson (e : Entity) : Entity.ofJson? e.toJson = some e := by
  cases e with
  | function f => rw [Entity.toJson, Entity.ofJson?, Function.ofJson?_toJson]
  | statement s =>
    rw [Entity.toJson, Entity.ofJson?, Function.ofJson?_statement, Statement.ofJson?_toJson]
    rfl

theorem File.ofJson?_toJson (f : File) : File.ofJson? f.toJson = some f := by
  have hes := mapM_ofJson? Entity.ofJson?_toJson f.entities
  simp [File.toJson, File.ofJson?, hes]

/-! ## Texts -/

/-- The tree that a text holds. -/
def File.read? (text : List Char) : Option File := (Json.read? text).bind File.ofJson?

theorem File.read?_writeThen (f : File) (layout : Json.Layout) {rest : List Char} (h : Json.lexemes? rest = some [])
    (hdigit : Json.NoDigit rest) : File.read? (f.toJson.writeThen layout 0 rest) = some f := by
  rw [File.read?, Json.read?_writeThen layout 0 f.toJson h hdigit, Option.bind_some, File.ofJson?_toJson]

/-- **The text of a tree holds the whole tree**. A syntax tree file and the compact text of the tree are both read back as
the tree, whatever tree it is; so two trees have one text only if they are one tree. -/
theorem File.read?_text (f : File) :
    (File.read? f.text = some f ∧ File.read? (f.toJson.write .compact) = some f) ∧
      ∀ g : File, (f.text = g.text ↔ f = g) ∧ (f.toJson.write .compact = g.toJson.write .compact ↔ f = g) := by
  have hpretty : ∀ f : File, File.read? f.text = some f := by
    intro f
    have hbreak : Json.lexemes? ['\n'] = some [] := by rw [Json.lexemes?_space (.inr rfl), Json.lexemes?]
    refine File.read?_writeThen f .pretty hbreak ?_
    intro c hc
    cases hc
    rfl
  have hcompact : ∀ f : File, File.read? (f.toJson.write .compact) = some f := by
    intro f
    refine File.read?_writeThen f .compact (by rw [Json.lexemes?]) ?_
    intro c hc
    cases hc
  refine ⟨⟨hpretty f, hcompact f⟩, fun g => ⟨⟨?_, congrArg File.text⟩, ⟨?_, fun h => by rw [h]⟩⟩⟩
  · intro h
    have hread : some f = some g := by rw [← hpretty f, h, hpretty g]
    exact Option.some.inj hread
  · intro h
    have hread : some f = some g := by rw [← hcompact f, h, hcompact g]
    exact Option.some.inj hread

/-- A call without arguments has a text, though no text is parsed to it. -/
example : (Expr.call "\n" []).toJson.write .compact =
    "\x7b\"type\":\"Function call\",\"function\":\"\\n\",\"arguments\":\x7b\"arguments\":[]\x7d\x7d".toList := by
  decide

end Parlance
