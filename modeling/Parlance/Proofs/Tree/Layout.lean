import Parlance.Proofs.Grammar.Sentence
import Parlance.Proofs.Token.Writing
import Parlance.Proofs.Tree.WellFormed
import Parlance.Grammar.File

/-!
# The layout of a tree

Tokens that write a tree down, blanks and line breaks included: parentheses around the operands of an operator and blanks
around the operator itself, a line for each statement, and a block that opens at the end of a line and closes on a line of
its own. The **text** of a file is the text of these tokens.

* the tokens do not run together (`File.spaced_layout`) and are proper ones (`File.proper_layout`), so that they are found
  again in the text;
* without the blanks they spell the tree (`File.spells_layout`).
-/

namespace Parlance

/-! ## Tokens of trees -/

namespace Expr

mutual

def layout : Expr → List Token
  | literal l => [.literal l]
  | identifier name => [.identifier name]
  | call f as => .identifier f :: .leftParen :: (layoutAll as ++ [.rightParen])
  | binary o l r => .leftParen :: (l.layout ++ .rightParen :: .blank :: .operator o :: .blank :: .leftParen ::
      (r.layout ++ [.rightParen]))

/-- The arguments of a call. -/
def layoutAll : List Expr → List Token
  | [] => []
  | [a] => a.layout
  | a :: b :: as => a.layout ++ .comma :: .blank :: layoutAll (b :: as)

end

end Expr

/-- Lines between braces. -/
def braced (lines : List Token) : List Token := .leftCurl :: .newLine :: (lines ++ [.rightCurl])

namespace Statement

mutual

def layout : Statement → List Token
  | declaration b name type v => .keyword (.binding b) :: .blank :: .identifier name :: .colon :: .blank ::
      .identifier type :: .blank :: .operator "=" :: .blank :: v.layout
  | returns v => .keyword .returns :: .blank :: v.layout
  | ifThen c b => .keyword .condition :: .blank :: .leftParen :: (c.layout ++ .rightParen :: .blank :: braced (layoutAll b))
  | ifElse c b a => .keyword .condition :: .blank :: .leftParen :: (c.layout ++ .rightParen :: .blank ::
      (braced (layoutAll b) ++ .blank :: .keyword .otherwise :: .blank :: braced (layoutAll a)))
  | expression v => v.layout

/-- Statements, each with the end of its line. -/
def layoutAll : List Statement → List Token
  | [] => []
  | s :: ss => s.layout ++ .newLine :: layoutAll ss

end

end Statement

def Parameter.layout (p : Parameter) : List Token := [.identifier p.name, .colon, .blank, .identifier p.type]

def Parameter.layoutAll : List Parameter → List Token
  | [] => []
  | [p] => p.layout
  | p :: q :: ps => p.layout ++ .comma :: .blank :: layoutAll (q :: ps)

def Function.layout (f : Function) : List Token :=
  .keyword .function :: .blank :: .identifier f.name :: .leftParen :: (Parameter.layoutAll f.parameters ++
    .rightParen :: .colon :: .blank :: .identifier f.returnType :: .blank :: braced (Statement.layoutAll f.body))

def Entity.layout : Entity → List Token
  | function f => f.layout
  | statement s => s.layout

/-- Entities, each with the end of its line. -/
def Entity.layoutAll : List Entity → List Token
  | [] => []
  | e :: es => e.layout ++ .newLine :: layoutAll es

def File.layout (f : File) : List Token := Entity.layoutAll f.entities

/-- The file as a text. -/
def File.render (f : File) : List Char := f.layout.flatMap Token.text

/-! ## No tokens run together -/

theorem Expr.layout_head (e : Expr) : ∃ t ts, e.layout = t :: ts ∧ t ≠ .blank := by
  cases e with
  | literal => exact ⟨_, _, rfl, nofun⟩
  | identifier => exact ⟨_, _, rfl, nofun⟩
  | call => exact ⟨_, _, rfl, nofun⟩
  | binary => exact ⟨_, _, rfl, nofun⟩

theorem Expr.layoutAll_head (a : Expr) (as : List Expr) : ∃ ts, layoutAll (a :: as) = a.layout ++ ts := by
  cases as with
  | nil => exact ⟨[], (List.append_nil _).symm⟩
  | cons b bs => exact ⟨_, rfl⟩

/-- No blank follows the blank in front of an expression. -/
theorem Expr.endsBefore_layout (e : Expr) (rest : List Token) : Token.blank.endsBefore (e.layout ++ rest).head? = true := by
  obtain ⟨t, ts, ht, hne⟩ := e.layout_head
  rw [ht]
  exact decide_eq_true hne

mutual

/-- A closed expression in front of tokens that no word begins. -/
theorem Expr.spaced_layout : ∀ (e : Expr) (rest : List Token), e.Closed → Spaced rest →
    rest.head?.all (fun u => !u.isWordlike) = true → Spaced (e.layout ++ rest)
  | .literal l, rest, h, hrest, hnext => by
    refine ⟨?_, hrest⟩
    cases l with
    | integer => exact hnext
    | badString => exact absurd rfl h
    | _ => rfl
  | .identifier _, rest, _, hrest, hnext => ⟨hnext, hrest⟩
  | .call f as, rest, h, hrest, _ => by
    have hall := Expr.spaced_layoutAll as (.rightParen :: rest) h ⟨rfl, hrest⟩ rfl
    simp only [layout, List.cons_append, List.append_assoc, List.nil_append]
    exact ⟨rfl, rfl, hall⟩
  | .binary o l r, rest, h, hrest, _ => by
    have hr := Expr.spaced_layout r (.rightParen :: rest) h.2 ⟨rfl, hrest⟩ rfl
    have hl := Expr.spaced_layout l (.rightParen :: .blank :: .operator o :: .blank :: .leftParen ::
      (r.layout ++ .rightParen :: rest)) h.1 ⟨rfl, rfl, rfl, rfl, rfl, hr⟩ rfl
    simp only [layout, List.cons_append, List.append_assoc, List.nil_append]
    exact ⟨rfl, hl⟩

theorem Expr.spaced_layoutAll : ∀ (as : List Expr) (rest : List Token), AllClosed as → Spaced rest →
    rest.head?.all (fun u => !u.isWordlike) = true → Spaced (layoutAll as ++ rest)
  | [], _, _, hrest, _ => hrest
  | [a], rest, h, hrest, hnext => Expr.spaced_layout a rest h.1 hrest hnext
  | a :: b :: as, rest, h, hrest, hnext => by
    have hall := Expr.spaced_layoutAll (b :: as) rest h.2 hrest hnext
    have hblank : Token.blank.endsBefore (layoutAll (b :: as) ++ rest).head? = true := by
      obtain ⟨ts, hts⟩ := Expr.layoutAll_head b as
      rw [hts, List.append_assoc]
      exact Expr.endsBefore_layout b _
    rw [layoutAll, List.append_assoc]
    exact Expr.spaced_layout a _ h.1 ⟨rfl, hblank, hall⟩ rfl

end

theorem spaced_braced {lines rest : List Token} (h : Spaced (lines ++ .rightCurl :: rest)) : Spaced (braced lines ++ rest) := by
  have hassoc : braced lines ++ rest = .leftCurl :: .newLine :: (lines ++ .rightCurl :: rest) := by simp [braced]
  rw [hassoc]
  exact ⟨rfl, rfl, h⟩

mutual

/-- A statement in front of a line break. -/
theorem Statement.spaced_layout : ∀ (s : Statement) (rest : List Token), s.Holds Expr.Closed → Spaced rest →
    rest.head? = some .newLine → Spaced (s.layout ++ rest)
  | .declaration b name type v, rest, h, hrest, hline => by
    have hv := v.spaced_layout rest h hrest (by rw [hline]; rfl)
    exact ⟨rfl, rfl, rfl, rfl, rfl, rfl, rfl, rfl, v.endsBefore_layout rest, hv⟩
  | .returns v, rest, h, hrest, hline => by
    have hv := v.spaced_layout rest h hrest (by rw [hline]; rfl)
    exact ⟨rfl, v.endsBefore_layout rest, hv⟩
  | .ifThen c b, rest, h, hrest, _ => by
    have hb := spaced_braced (Statement.spaced_layoutAll b (.rightCurl :: rest) h.2 ⟨rfl, hrest⟩)
    have hc := c.spaced_layout (.rightParen :: .blank :: (braced (layoutAll b) ++ rest)) h.1 ⟨rfl, rfl, hb⟩ rfl
    simp only [layout, List.cons_append, List.append_assoc]
    exact ⟨rfl, rfl, rfl, hc⟩
  | .ifElse c b a, rest, h, hrest, _ => by
    have ha := spaced_braced (Statement.spaced_layoutAll a (.rightCurl :: rest) h.2.2 ⟨rfl, hrest⟩)
    have hb := spaced_braced (Statement.spaced_layoutAll b
      (.rightCurl :: .blank :: .keyword .otherwise :: .blank :: (braced (layoutAll a) ++ rest)) h.2.1
      ⟨rfl, rfl, rfl, rfl, ha⟩)
    have hc := c.spaced_layout (.rightParen :: .blank :: (braced (layoutAll b) ++
      .blank :: .keyword .otherwise :: .blank :: (braced (layoutAll a) ++ rest))) h.1 ⟨rfl, rfl, hb⟩ rfl
    simp only [layout, List.cons_append, List.append_assoc]
    exact ⟨rfl, rfl, rfl, hc⟩
  | .expression v, rest, h, hrest, hline => v.spaced_layout rest h hrest (by rw [hline]; rfl)

theorem Statement.spaced_layoutAll : ∀ (ss : List Statement) (rest : List Token), AllHold Expr.Closed ss → Spaced rest →
    Spaced (layoutAll ss ++ rest)
  | [], _, _, hrest => hrest
  | s :: ss, rest, h, hrest => by
    have hall := Statement.spaced_layoutAll ss rest h.2 hrest
    rw [layoutAll, List.append_assoc]
    exact Statement.spaced_layout s _ h.1 ⟨rfl, hall⟩ rfl

end

theorem Parameter.spaced_layoutAll : ∀ (ps : List Parameter) (rest : List Token), Spaced rest →
    rest.head? = some .rightParen → Spaced (layoutAll ps ++ rest)
  | [], _, hrest, _ => hrest
  | [p], rest, hrest, hnext => by
    have htype : (Token.identifier p.type).endsBefore rest.head? = true := by rw [hnext]; rfl
    exact ⟨rfl, rfl, rfl, htype, hrest⟩
  | p :: q :: ps, rest, hrest, hnext => by
    have hall := spaced_layoutAll (q :: ps) rest hrest hnext
    have hblank : Token.blank.endsBefore (layoutAll (q :: ps) ++ rest).head? = true := by cases ps <;> rfl
    rw [layoutAll, List.append_assoc]
    exact ⟨rfl, rfl, rfl, rfl, rfl, hblank, hall⟩

theorem Function.spaced_layout (f : Function) {rest : List Token} (h : Statement.AllHold Expr.Closed f.body)
    (hrest : Spaced rest) : Spaced (f.layout ++ rest) := by
  have hbody := spaced_braced (Statement.spaced_layoutAll f.body (.rightCurl :: rest) h ⟨rfl, hrest⟩)
  have hall := Parameter.spaced_layoutAll f.parameters
    (.rightParen :: .colon :: .blank :: .identifier f.returnType :: .blank :: (braced (Statement.layoutAll f.body) ++ rest))
    ⟨rfl, rfl, rfl, rfl, rfl, hbody⟩ rfl
  simp only [layout, List.cons_append, List.append_assoc]
  exact ⟨rfl, rfl, rfl, rfl, hall⟩

/-- The tokens of a closed file do not run together. -/
theorem File.spaced_layout {f : File} (h : f.Closed) : Spaced f.layout := by
  obtain ⟨es⟩ := f
  show Spaced (Entity.layoutAll es)
  induction es with
  | nil => trivial
  | cons e es ih =>
    obtain ⟨he, hes⟩ := List.forall_mem_cons.mp h
    have hrest : Spaced (.newLine :: Entity.layoutAll es) := ⟨rfl, ih hes⟩
    cases e with
    | function f => exact f.spaced_layout he hrest
    | statement s => exact s.spaced_layout _ he hrest rfl

/-! ## Every token is proper -/

section Proper

mutual

theorem Expr.proper_layout : ∀ e : Expr, e.WellFormed → ∀ t ∈ e.layout, t.Proper
  | .literal _, h => List.forall_mem_singleton.mpr h
  | .identifier _, h => List.forall_mem_singleton.mpr h
  | .call f as, h => by
    have hall := Expr.proper_layoutAll as h.2.2
    simp only [layout, List.forall_mem_cons, List.forall_mem_append]
    exact ⟨h.1, trivial, hall, trivial, nofun⟩
  | .binary o l r, h => by
    have hl := Expr.proper_layout l h.2.1
    have hr := Expr.proper_layout r h.2.2
    simp only [layout, List.forall_mem_cons, List.forall_mem_append]
    exact ⟨trivial, hl, trivial, trivial, h.1, trivial, trivial, hr, trivial, nofun⟩

theorem Expr.proper_layoutAll : ∀ as : List Expr, AllWellFormed as → ∀ t ∈ layoutAll as, t.Proper
  | [], _ => nofun
  | [a], h => Expr.proper_layout a h.1
  | a :: b :: as, h => by
    have ha := Expr.proper_layout a h.1
    have hall := Expr.proper_layoutAll (b :: as) h.2
    simp only [layoutAll, List.forall_mem_cons, List.forall_mem_append]
    exact ⟨ha, trivial, trivial, hall⟩

end

theorem proper_braced {lines : List Token} (h : ∀ t ∈ lines, t.Proper) : ∀ t ∈ braced lines, t.Proper := by
  simp only [braced, List.forall_mem_cons, List.forall_mem_append]
  exact ⟨trivial, trivial, h, trivial, nofun⟩

theorem proper_assignment : (Token.operator "=").Proper := by
  show IsOperator "="
  decide

mutual

theorem Statement.proper_layout : ∀ s : Statement, s.WellFormed → ∀ t ∈ s.layout, t.Proper
  | .declaration _ _ _ v, h => by
    obtain ⟨hname, htype, hv⟩ := h
    have hvalue := v.proper_layout hv
    simp only [layout, List.forall_mem_cons]
    exact ⟨trivial, trivial, hname, trivial, trivial, htype, trivial, proper_assignment, trivial, hvalue⟩
  | .returns v, h => by
    have hvalue := v.proper_layout h
    simp only [layout, List.forall_mem_cons]
    exact ⟨trivial, trivial, hvalue⟩
  | .ifThen c b, h => by
    have hc := c.proper_layout h.1
    have hb := proper_braced (Statement.proper_layoutAll b h.2)
    simp only [layout, List.forall_mem_cons, List.forall_mem_append]
    exact ⟨trivial, trivial, trivial, hc, trivial, trivial, hb⟩
  | .ifElse c b a, h => by
    have hc := c.proper_layout h.1
    have hb := proper_braced (Statement.proper_layoutAll b h.2.1)
    have ha := proper_braced (Statement.proper_layoutAll a h.2.2)
    simp only [layout, List.forall_mem_cons, List.forall_mem_append]
    exact ⟨trivial, trivial, trivial, hc, trivial, trivial, hb, trivial, trivial, trivial, ha⟩
  | .expression v, h => v.proper_layout h

theorem Statement.proper_layoutAll : ∀ ss : List Statement, AllWellFormed ss → ∀ t ∈ layoutAll ss, t.Proper
  | [], _ => nofun
  | s :: ss, h => by
    have hs := Statement.proper_layout s h.1
    have hall := Statement.proper_layoutAll ss h.2
    simp only [layoutAll, List.forall_mem_cons, List.forall_mem_append]
    exact ⟨hs, trivial, hall⟩

end

theorem Parameter.proper_layoutAll : ∀ ps : List Parameter, (∀ p ∈ ps, p.WellFormed) → ∀ t ∈ layoutAll ps, t.Proper
  | [], _ => nofun
  | [p], h => by
    obtain ⟨hname, htype⟩ := h p List.mem_cons_self
    simp only [layoutAll, layout, List.forall_mem_cons]
    exact ⟨hname, trivial, trivial, htype, nofun⟩
  | p :: q :: ps, h => by
    obtain ⟨⟨hname, htype⟩, hps⟩ := List.forall_mem_cons.mp h
    have hall := proper_layoutAll (q :: ps) hps
    simp only [layoutAll, layout, List.forall_mem_cons, List.forall_mem_append]
    exact ⟨⟨hname, trivial, trivial, htype, nofun⟩, trivial, trivial, hall⟩

theorem Function.proper_layout {f : Function} (h : f.WellFormed) : ∀ t ∈ f.layout, t.Proper := by
  have hparameters := Parameter.proper_layoutAll f.parameters h.parameters
  have hbody := proper_braced (Statement.proper_layoutAll f.body h.body)
  simp only [layout, List.forall_mem_cons, List.forall_mem_append]
  exact ⟨trivial, trivial, h.name, trivial, hparameters, trivial, trivial, trivial, h.returnType, trivial, hbody⟩

theorem Entity.proper_layout {e : Entity} (h : e.WellFormed) : ∀ t ∈ e.layout, t.Proper := by
  unfold Entity.WellFormed at h
  split at h
  · exact Function.proper_layout h
  · exact Statement.proper_layout _ h
  · exact h.elim

/-- The tokens of a well-formed file are proper. -/
theorem File.proper_layout {f : File} (h : f.WellFormed) : ∀ t ∈ f.layout, t.Proper := by
  obtain ⟨es⟩ := f
  show ∀ t ∈ Entity.layoutAll es, t.Proper
  induction es with
  | nil => exact nofun
  | cons e es ih =>
    obtain ⟨he, hes⟩ := List.forall_mem_cons.mp h
    simp only [Entity.layoutAll, List.forall_mem_cons, List.forall_mem_append]
    exact ⟨Entity.proper_layout he, trivial, ih hes⟩

end Proper

/-! ## The spelling of the tree -/

section Spelling

open Grammar

mutual

theorem Expr.spells_layout : ∀ e : Expr, e.WellFormed → Spells lowestPriority (significant e.layout) e
  | .literal _, _ => .literal
  | .identifier _, _ => .identifier
  | .call f as, h => by
    have hall := Expr.spells_layoutAll as h.2.1 h.2.2
    have htokens : significant (layout (.call f as)) =
        .identifier f :: .leftParen :: (significant (layoutAll as) ++ [.rightParen]) := by
      simp [layout, significant, Token.isTrivia]
    rw [htokens]
    exact .call hall
  | .binary o l r, h => by
    have hl := Expr.spells_layout l h.2.1
    have hr := Expr.spells_layout r h.2.2
    have htokens : significant (layout (.binary o l r)) =
        .leftParen :: (significant l.layout ++ [.rightParen]) ++
          .operator o :: .leftParen :: (significant r.layout ++ [.rightParen]) := by
      simp [layout, significant, Token.isTrivia]
    rw [htokens]
    exact .binary (priority_pos o) (.parens hl) (.parens hr)

theorem Expr.spells_layoutAll : ∀ as : List Expr, as ≠ [] → AllWellFormed as → SpellsAll (significant (layoutAll as)) as
  | [], hne, _ => absurd rfl hne
  | [a], _, h => .one (Expr.spells_layout a h.1)
  | a :: b :: as, _, h => by
    have ha := Expr.spells_layout a h.1
    have hall := Expr.spells_layoutAll (b :: as) (List.cons_ne_nil b as) h.2
    have htokens : significant (layoutAll (a :: b :: as)) =
        significant a.layout ++ .comma :: significant (layoutAll (b :: as)) := by
      simp [layoutAll, significant, Token.isTrivia]
    rw [htokens]
    exact .more ha hall

end

/-- Lines between braces spell a block. -/
theorem spells_braced {lines : List Token} {b : Block} (h : SpellsItems (significant lines) b) :
    SpellsBlock (significant (braced lines)) b := by
  have htokens : significant (braced lines) = .leftCurl :: (.newLine :: significant lines ++ [.rightCurl]) := by
    simp [braced, significant, Token.isTrivia]
  rw [htokens]
  exact .braces (.newLine h)

mutual

theorem Statement.spells_layout : ∀ s : Statement, s.WellFormed →
    SpellsSimple (significant s.layout) s ∨ SpellsConditional (significant s.layout) s
  | .declaration _ _ _ v, h => .inl (.declaration (v.spells_layout h.2.2))
  | .returns v, h => .inl (.returns (v.spells_layout h))
  | .ifThen c b, h => by
    have hc := c.spells_layout h.1
    have hb := spells_braced (Statement.spells_layoutAll b h.2)
    have htokens : significant (layout (.ifThen c b)) = .keyword .condition :: .leftParen ::
        (significant c.layout ++ .rightParen :: significant (braced (layoutAll b))) := by
      simp [layout, significant, Token.isTrivia]
    rw [htokens]
    exact .inr (.ifThen hc hb)
  | .ifElse c b a, h => by
    have hc := c.spells_layout h.1
    have hb := spells_braced (Statement.spells_layoutAll b h.2.1)
    have ha := spells_braced (Statement.spells_layoutAll a h.2.2)
    have htokens : significant (layout (.ifElse c b a)) = .keyword .condition :: .leftParen ::
        (significant c.layout ++ .rightParen :: (significant (braced (layoutAll b)) ++
          .keyword .otherwise :: significant (braced (layoutAll a)))) := by
      simp [layout, significant, Token.isTrivia]
    rw [htokens]
    exact .inr (.ifElse hc hb ha)
  | .expression v, h => .inl (.expression (v.spells_layout h))

theorem Statement.spells_layoutAll : ∀ ss : List Statement, AllWellFormed ss → SpellsItems (significant (layoutAll ss)) ss
  | [], _ => .nil
  | s :: ss, h => by
    have hall : SpellsItems (.newLine :: significant (layoutAll ss)) ss := .newLine (Statement.spells_layoutAll ss h.2)
    have htokens : significant (layoutAll (s :: ss)) = significant s.layout ++ .newLine :: significant (layoutAll ss) := by
      simp [layoutAll, significant, Token.isTrivia]
    rw [htokens]
    rcases Statement.spells_layout s h.1 with hs | hs
    · exact .simple hs hall (by simp)
    · exact .conditional hs hall

end

theorem Parameter.spells_layoutAll : ∀ (p : Parameter) (ps : List Parameter),
    SpellsParameters (significant (layoutAll (p :: ps))) (p :: ps)
  | _, [] => .one
  | _, q :: ps => .more (spells_layoutAll q ps)

theorem Function.spells_layout {f : Function} (h : f.WellFormed) : SpellsFunction (significant f.layout) f := by
  have hbody := spells_braced (Statement.spells_layoutAll f.body h.body)
  have hsignature : SpellsSignature (significant (Parameter.layoutAll f.parameters)) f.parameters := by
    cases f.parameters with
    | nil => exact .empty
    | cons p ps => exact .listed (Parameter.spells_layoutAll p ps)
  have htokens : significant f.layout = .keyword .function :: .identifier f.name :: .leftParen ::
      (significant (Parameter.layoutAll f.parameters) ++ .rightParen :: .colon ::
        (lineBreaks 0 ++ .identifier f.returnType :: (lineBreaks 0 ++ significant (braced (Statement.layoutAll f.body))))) := by
    simp [layout, significant, Token.isTrivia, lineBreaks]
  rw [htokens]
  exact .intro 0 0 hsignature hbody

theorem Entity.spells_layout {e : Entity} (h : e.WellFormed) (rest : List Token) :
    SpellsEntity (significant e.layout) (.newLine :: rest) e := by
  unfold Entity.WellFormed at h
  split at h
  · exact .function (Function.spells_layout h)
  · exact .declaration (.declaration (Expr.spells_layout _ h.2.2)) (by decide)
  · exact h.elim

/-- Without its blanks, the layout of a well-formed file spells the entities of the file. -/
theorem File.spells_layout {f : File} (h : f.WellFormed) (rest : List Token) :
    SpellsEntities (significant f.layout) rest f.entities := by
  obtain ⟨es⟩ := f
  show SpellsEntities (significant (Entity.layoutAll es)) rest es
  induction es with
  | nil => exact .nil
  | cons e es ih =>
    obtain ⟨he, hes⟩ := List.forall_mem_cons.mp h
    have htokens : significant (Entity.layoutAll (e :: es)) =
        significant e.layout ++ .newLine :: significant (Entity.layoutAll es) := by
      simp [Entity.layoutAll, significant, Token.isTrivia]
    rw [htokens]
    exact .entity (Entity.spells_layout he _) (.newLine (ih hes))

end Spelling

end Parlance
