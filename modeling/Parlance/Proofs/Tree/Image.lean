import Parlance.Grammar.File
import Parlance.Proofs.Grammar.Sentence
import Parlance.Proofs.Token.LineFeed
import Parlance.Proofs.Tree.WellFormed

/-!
# The trees that texts are parsed to

What the tokens of a text have in common carries over to every tree they spell. Proper tokens spell well-formed trees: names,
operators and literals are taken from the tokens as they stand, and the grammar asks for an argument in each call.

An unclosed string has a line break or the end of the text right behind it, and no expression holds either token. So in
the tokens of an expression it can only be the last one (`ClosesLines.notMem_dropLast`), and not even that where a
parenthesis, a comma or an operator follows (`ClosesLines.notMem`).
-/

namespace Parlance.Grammar

/-! ## Expressions -/

section Expressions

variable {floor : Nat} {w rest : List Token} {e : Expr} {as : List Expr}

theorem Spells.wellFormed (h : Spells floor w e) (hw : ∀ t ∈ w, t.Proper) : e.WellFormed := by
  induction h using Spells.rec
    (motive_2 := fun w as _ => (∀ t ∈ w, t.Proper) → as ≠ [] ∧ Expr.AllWellFormed as) with
  | literal => exact hw _ List.mem_cons_self
  | identifier => exact hw _ List.mem_cons_self
  | call _ ih =>
    simp only [List.forall_mem_cons, List.forall_mem_append] at hw
    obtain ⟨hf, -, hw, -⟩ := hw
    exact ⟨hf, ih hw⟩
  | parens _ ih =>
    simp only [List.forall_mem_cons, List.forall_mem_append] at hw
    exact ih hw.2.1
  | binary _ _ _ ihl ihr =>
    simp only [List.forall_mem_cons, List.forall_mem_append] at hw
    obtain ⟨hl, ho, hr⟩ := hw
    exact ⟨ho, ihl hl, ihr hr⟩
  | one _ ih hw => exact ⟨List.cons_ne_nil _ _, ih hw, trivial⟩
  | more _ _ iha ihas hw =>
    simp only [List.forall_mem_cons, List.forall_mem_append] at hw
    obtain ⟨ha, -, has⟩ := hw
    exact ⟨List.cons_ne_nil _ _, iha ha, (ihas has).2⟩

/-- Tokens without unclosed strings spell a closed expression. -/
theorem Spells.closed (h : Spells floor w e) (hw : .literal .badString ∉ w) : e.Closed := by
  induction h using Spells.rec (motive_2 := fun w as _ => Token.literal .badString ∉ w → Expr.AllClosed as) with
  | literal => exact fun hl => hw (by rw [hl]; exact List.mem_cons_self)
  | identifier => trivial
  | call _ ih => exact ih (by simp_all)
  | parens _ ih => exact ih (by simp_all)
  | binary _ _ _ ihl ihr => exact ⟨ihl (by simp_all), ihr (by simp_all)⟩
  | one _ ih hw => exact ⟨ih hw, trivial⟩
  | more _ _ iha ihas hw => exact ⟨iha (by simp_all), ihas (by simp_all)⟩

/-- Tokens of which only the last may be an unclosed string spell an expression that is closed but for its last leaf. -/
theorem Spells.closedButLast (h : Spells floor w e) (hw : .literal .badString ∉ w.dropLast) : e.ClosedButLast := by
  induction h using Spells.rec (motive_2 := fun _ _ _ => True) with
  | literal => trivial
  | identifier => trivial
  | @call _ name w as hall _ =>
    have hin : Token.literal .badString ∉ w := fun hm => hw (by simp [List.dropLast, hm])
    exact (Spells.call hall : Spells lowestPriority _ (.call name as)).closed (by simp [hin])
  | @parens _ w e hs _ =>
    have hin : Token.literal .badString ∉ w := fun hm => hw (by simp [List.dropLast, hm])
    exact (hs.closed hin).butLast
  | @binary floor o v w l r _ hl hr _ ihr =>
    have hne : w ≠ [] := hr.ne_nil
    rw [List.dropLast_append_of_ne_nil (List.cons_ne_nil _ _), List.dropLast_cons_of_ne_nil hne] at hw
    simp only [List.mem_append, List.mem_cons, not_or] at hw
    exact ⟨hl.closed hw.1, ihr hw.2.2⟩
  | one => trivial
  | more => trivial

/-- No line break and no end of the text stands in an expression. -/
theorem Spells.notMem_breaks (h : Spells floor w e) : .newLine ∉ w ∧ .endOfInput ∉ w := by
  induction h using Spells.rec (motive_2 := fun w _ _ => Token.newLine ∉ w ∧ Token.endOfInput ∉ w) <;> simp_all

end Expressions

/-! ## Statements -/

section Statements

theorem SpellsSimple.wellFormed {w : List Token} {s : Statement} (h : SpellsSimple w s) (hw : ∀ t ∈ w, t.Proper) :
    s.WellFormed := by
  cases h with
  | declaration hs =>
    simp only [List.forall_mem_cons] at hw
    obtain ⟨-, hname, -, htype, -, hv⟩ := hw
    exact ⟨hname, htype, hs.wellFormed hv⟩
  | returns hs => exact hs.wellFormed (List.forall_mem_cons.mp hw).2
  | expression hs => exact hs.wellFormed hw

mutual

theorem SpellsConditional.wellFormed : ∀ {w : List Token} {s : Statement}, SpellsConditional w s → (∀ t ∈ w, t.Proper) →
    s.WellFormed
  | _, _, .ifThen hs hb, hw => by
    simp only [List.forall_mem_cons, List.forall_mem_append] at hw
    obtain ⟨-, -, hv, -, hb'⟩ := hw
    exact ⟨hs.wellFormed hv, hb.wellFormed hb'⟩
  | _, _, .ifElse hs hb ha, hw => by
    simp only [List.forall_mem_cons, List.forall_mem_append] at hw
    obtain ⟨-, -, hv, -, hb', -, ha'⟩ := hw
    exact ⟨hs.wellFormed hv, hb.wellFormed hb', ha.wellFormed ha'⟩

theorem SpellsBlock.wellFormed : ∀ {w : List Token} {b : Block}, SpellsBlock w b → (∀ t ∈ w, t.Proper) →
    Statement.AllWellFormed b
  | _, _, .braces hs, hw => by
    simp only [List.forall_mem_cons, List.forall_mem_append] at hw
    exact hs.wellFormed hw.2.1

theorem SpellsItems.wellFormed : ∀ {w : List Token} {b : Block}, SpellsItems w b → (∀ t ∈ w, t.Proper) →
    Statement.AllWellFormed b
  | _, _, .nil, _ => trivial
  | _, _, .newLine hs, hw => hs.wellFormed (List.forall_mem_cons.mp hw).2
  | _, _, .conditional hc hs, hw => by
    obtain ⟨hv, hw⟩ := List.forall_mem_append.mp hw
    exact ⟨hc.wellFormed hv, hs.wellFormed hw⟩
  | _, _, .simple hc hs _, hw => by
    obtain ⟨hv, hw⟩ := List.forall_mem_append.mp hw
    exact ⟨hc.wellFormed hv, hs.wellFormed hw⟩

end

/-- Where an unclosed string ends its line, it ends its value: only the last leaf of a value is unclosed. -/
theorem Spells.closedButLast_of_closesLines {floor : Nat} {w rest : List Token} {e : Expr} (h : Spells floor w e)
    (hw : ClosesLines (w ++ rest)) : e.ClosedButLast := by
  obtain ⟨hline, hend⟩ := h.notMem_breaks
  exact h.closedButLast (hw.notMem_dropLast hline hend rfl)

/-- In front of a token that is neither a line break nor the end of the text, nothing is unclosed. -/
theorem Spells.closed_of_closesLines {floor : Nat} {w rest : List Token} {e : Expr} {t : Token} (h : Spells floor w e)
    (hw : ClosesLines (w ++ t :: rest)) (ht : t ≠ .newLine ∧ t ≠ .endOfInput) : e.Closed := by
  obtain ⟨hline, hend⟩ := h.notMem_breaks
  exact h.closed (hw.notMem hline hend ht rfl)

theorem SpellsSimple.closedButLast {w rest : List Token} {s : Statement} (h : SpellsSimple w s)
    (hw : ClosesLines (w ++ rest)) : s.Holds Expr.ClosedButLast := by
  cases h with
  | @declaration b name type v e hs =>
    have hv : ClosesLines (v ++ rest) := hw.2.2.2.2.2
    exact hs.closedButLast_of_closesLines hv
  | @returns v e hs =>
    have hv : ClosesLines (v ++ rest) := hw.2
    exact hs.closedButLast_of_closesLines hv
  | expression hs => exact hs.closedButLast_of_closesLines hw

mutual

theorem SpellsConditional.closedButLast : ∀ {w : List Token} {s : Statement}, SpellsConditional w s →
    ∀ rest, ClosesLines (w ++ rest) → s.Holds Expr.ClosedButLast
  | _, _, .ifThen (v := v) (w := w) hs hb, rest, hw => by
    have hv : ClosesLines (v ++ .rightParen :: (w ++ rest)) := by simpa using hw.2.2
    have hw : ClosesLines (w ++ rest) := hv.right.2
    exact ⟨hs.closed_of_closesLines hv (by decide), hb.closedButLast rest hw⟩
  | _, _, .ifElse (v := v) (w := w) (x := x) hs hb ha, rest, hw => by
    have hv : ClosesLines (v ++ .rightParen :: (w ++ .keyword .otherwise :: (x ++ rest))) := by simpa using hw.2.2
    have hw : ClosesLines (w ++ .keyword .otherwise :: (x ++ rest)) := hv.right.2
    have hx : ClosesLines (x ++ rest) := hw.right.2
    exact ⟨hs.closed_of_closesLines hv (by decide), hb.closedButLast _ hw, ha.closedButLast rest hx⟩

theorem SpellsBlock.closedButLast : ∀ {w : List Token} {b : Block}, SpellsBlock w b →
    ∀ rest, ClosesLines (w ++ rest) → Statement.AllHold Expr.ClosedButLast b
  | _, _, .braces (w := w) hs, rest, hw => by
    rw [List.cons_append, List.append_assoc] at hw
    exact hs.closedButLast _ hw.2

theorem SpellsItems.closedButLast : ∀ {w : List Token} {b : Block}, SpellsItems w b →
    ∀ rest, ClosesLines (w ++ rest) → Statement.AllHold Expr.ClosedButLast b
  | _, _, .nil, _, _ => trivial
  | _, _, .newLine hs, rest, hw => hs.closedButLast rest hw.2
  | _, _, .conditional hc hs, rest, hw => by
    rw [List.append_assoc] at hw
    exact ⟨hc.closedButLast _ hw, hs.closedButLast rest hw.right⟩
  | _, _, .simple hc hs _, rest, hw => by
    rw [List.append_assoc] at hw
    exact ⟨hc.closedButLast hw, hs.closedButLast rest hw.right⟩

end

end Statements

/-! ## Files -/

section Files

variable {w rest : List Token}

theorem SpellsParameters.wellFormed {ps : List Parameter} (h : SpellsParameters w ps) (hw : ∀ t ∈ w, t.Proper) :
    ∀ p ∈ ps, p.WellFormed := by
  induction h with
  | one =>
    simp only [List.forall_mem_cons] at hw ⊢
    exact ⟨⟨hw.1, hw.2.2.1⟩, nofun⟩
  | more _ ih =>
    simp only [List.forall_mem_cons] at hw ⊢
    obtain ⟨hname, -, htype, -, hw⟩ := hw
    exact ⟨⟨hname, htype⟩, ih hw⟩

theorem SpellsFunction.wellFormed {f : Function} (h : SpellsFunction w f) (hw : ∀ t ∈ w, t.Proper) : f.WellFormed := by
  cases h with
  | intro m n hs hb =>
    simp only [List.forall_mem_cons, List.forall_mem_append] at hw
    obtain ⟨-, hname, -, hv, -, -, -, htype, -, hbody⟩ := hw
    refine ⟨hname, ?_, htype, hb.wellFormed hbody⟩
    cases hs with
    | empty => exact nofun
    | listed hs => exact hs.wellFormed hv

theorem SpellsFunction.closedButLast {f : Function} (h : SpellsFunction w f) (hw : ClosesLines (w ++ rest)) :
    Statement.AllHold Expr.ClosedButLast f.body := by
  cases h with
  | @intro name type v w ps body m n _ hb =>
    have hv : ClosesLines
        (v ++ .rightParen :: .colon :: (lineBreaks m ++ .identifier type :: (lineBreaks n ++ (w ++ rest)))) := by
      simpa using hw.2.2.2
    exact hb.closedButLast rest hv.right.2.2.right.2.right

theorem SpellsEntity.wellFormed {e : Entity} (h : SpellsEntity w rest e) (hw : ∀ t ∈ w, t.Proper) : e.WellFormed := by
  cases h with
  | function hs => exact hs.wellFormed hw
  | declaration hs _ => exact hs.wellFormed hw

theorem SpellsEntity.closedButLast {e : Entity} (h : SpellsEntity w rest e) (hw : ClosesLines (w ++ rest)) :
    e.Holds Expr.ClosedButLast := by
  cases h with
  | function hs => exact hs.closedButLast hw
  | declaration hs _ => exact hs.closedButLast hw

theorem SpellsEntities.wellFormed {es : List Entity} (h : SpellsEntities w rest es) (hw : ∀ t ∈ w, t.Proper) :
    ∀ e ∈ es, e.WellFormed := by
  induction h with
  | nil => exact nofun
  | newLine _ ih => exact ih (List.forall_mem_cons.mp hw).2
  | entity he _ ih =>
    obtain ⟨hv, hw⟩ := List.forall_mem_append.mp hw
    exact List.forall_mem_cons.mpr ⟨he.wellFormed hv, ih hw⟩

theorem SpellsEntities.closedButLast {es : List Entity} (h : SpellsEntities w rest es) (hw : ClosesLines (w ++ rest)) :
    ∀ e ∈ es, e.Holds Expr.ClosedButLast := by
  induction h with
  | nil => exact nofun
  | newLine _ ih => exact ih hw.2
  | entity he _ ih =>
    rw [List.append_assoc] at hw
    exact List.forall_mem_cons.mpr ⟨he.closedButLast hw, ih hw.right⟩

end Files

/-- Trivia do not stand between a token that takes its line along and the end of the line. -/
theorem closesLines_significant {ts : List Token} (h : ClosesLines ts) : ClosesLines (significant ts) := by
  induction ts with
  | nil => trivial
  | cons t ts ih =>
    obtain ⟨ht, hts⟩ := h
    have hbehind := ih hts
    by_cases hkept : t.isTrivia = true
    · have hdrop : significant (t :: ts) = significant ts := by simp [significant, hkept]
      rwa [hdrop]
    · have hkeep : significant (t :: ts) = t :: significant ts := by simp [significant, hkept]
      rw [hkeep]
      refine ⟨fun hbad => ?_, hbehind⟩
      rcases ht hbad with hnext | hnext
      all_goals
        obtain ⟨us, rfl⟩ := List.head?_eq_some_iff.mp hnext
        simp [significant, Token.isTrivia]

end Parlance.Grammar
