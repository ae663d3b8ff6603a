import Parlance.Proofs.Grammar.Spelling
import Parlance.Proofs.Grammar.Uniform

/-!
# Expressions are parsed exactly

* **Soundness** (`expression_sound`): where the parser matches, the tokens it took spell the expression, and it stopped
  on a token that an expression may end in front of. The loop over operators carries the left operand with a spelling
  above the floor and above every operator it stands in front of.
* **Completeness** (`expression_complete`): a spelling in front of such a token is read, and nothing more. The induction
  on spellings goes over what the parser does behind `w`, since a left operand is read by the loop of the whole.
* Both together say where the parser matches, where it fails and that there is one way to read an expression
  (`expression_exact`).
-/

namespace Parlance.Grammar

open Cursor

/-! ## Soundness -/

mutual

theorem expression_sound (floor : Nat) (c : Cursor) {e : Expr} {d : Cursor}
    (h : (expression floor c).result? = some (e, d)) :
    ∃ w t, c.ahead = w ++ d.ahead ∧ Spells floor w e ∧ d.current = some t ∧ Stops floor t := by
  rw [expression, Outcome.result?_bind] at h
  obtain ⟨left, b, hb, hleft, hrest⟩ := h
  obtain ⟨v, hv, hatom⟩ := operand_sound c hleft
  obtain ⟨w, t, hw, hs, ht, hstop⟩ := operators_sound floor left b hb hrest v (hatom _) fun _ _ => hatom _
  exact ⟨w, t, hv.trans hw, hs, ht, hstop⟩
termination_by (c.unread.length, 2)

/-- The left operand is spelled by the tokens before, above the floor and above every operator it stands in front of. -/
theorem operators_sound {n : Nat} (floor : Nat) (left : Expr) (c : Cursor) (hc : c.unread.length < n) {e : Expr}
    {d : Cursor} (h : (operators floor left c hc).result? = some (e, d)) (v : List Token) (hv : Spells floor v left)
    (ho : ∀ o, c.current = some (.operator o) → Spells (priority o - 1) v left) :
    ∃ w t, v ++ c.ahead = w ++ d.ahead ∧ Spells floor w e ∧ d.current = some t ∧ Stops floor t := by
  rw [operators, result?_look] at h
  obtain ⟨t, ht, h⟩ := h
  split at h
  · rename_i o
    split at h
    · rename_i hp
      obtain ⟨t', b, hb, hstep, -, h⟩ := result?_take.mp h
      obtain ⟨right, a, ha, hright, h⟩ := Outcome.result?_bind.mp h
      obtain ⟨w, u, hw, hs, hu, hstop⟩ := expression_sound (priority o) b hright
      have hbin : ∀ floor' < priority o, Spells floor' (v ++ .operator o :: w) (.binary o left right) :=
        fun _ hp' => .binary hp' (ho o ht) hs
      -- the right operand ended in front of the next operator, which so binds no tighter than this one
      have hnext : ∀ o', a.current = some (.operator o') → priority o' - 1 < priority o := by
        intro o' ho'
        cases hu.symm.trans ho'
        cases hstop with
        | operator hle => have := priority_pos o'; omega
      obtain ⟨x, s, hx, hxs, hsc, hss⟩ :=
        operators_sound floor _ a _ h (v ++ .operator o :: w) (hbin floor hp) fun o' ho' => hbin _ (hnext o' ho')
      refine ⟨x, s, ?_, hxs, hsc, hss⟩
      rw [ahead_of_advance ht hstep, hw, ← hx]
      simp
    · rename_i hp
      cases h
      exact ⟨v, _, rfl, hv, ht, .operator (Nat.not_lt.mp hp)⟩
  · split at h
    · rename_i hend
      cases h
      exact ⟨v, t, rfl, hv, ht, .of_endsExpression hend⟩
    · cases h
termination_by (c.unread.length, 0)

theorem operand_sound (c : Cursor) {e : Expr} {d : Cursor} (h : (operand c).result? = some (e, d)) :
    ∃ w, c.ahead = w ++ d.ahead ∧ ∀ floor, Spells floor w e := by
  by_cases hc : c.current = some .leftParen
  · obtain ⟨w, hw, hs⟩ := parens_sound c hc h
    exact ⟨.leftParen :: (w ++ [.rightParen]), by rw [hw]; simp, fun _ => .parens hs⟩
  rw [operand, result?_look] at h
  obtain ⟨t, ht, h⟩ := h
  split at h
  · obtain ⟨_, b, _, hstep, -, h⟩ := result?_take.mp h
    cases h
    exact ⟨_, ahead_of_advance ht hstep, fun _ => .literal⟩
  · obtain ⟨u, b, _, hstep, hu, h⟩ := result?_take.mp h
    have hb := ahead_of_advance ht hstep
    split at h
    · obtain ⟨_, a, _, hstep', -, h⟩ := result?_take.mp h
      obtain ⟨as, f, _, has, h⟩ := Outcome.result?_bind.mp h
      cases h
      obtain ⟨w, hw, hs⟩ := arguments_sound a has
      refine ⟨_, ?_, fun _ => .call hs⟩
      rw [hb, ahead_of_advance hu hstep', hw]
      simp
    · cases h
      exact ⟨_, hb, fun _ => .identifier⟩
    · split at h
      · cases h
        exact ⟨_, hb, fun _ => .identifier⟩
      · cases h
  · exact absurd ht hc
  · cases h
termination_by (c.unread.length, 1)

/-- An operand that starts with a parenthesis is an expression in parentheses. -/
theorem parens_sound (c : Cursor) (hc : c.current = some .leftParen) {e : Expr} {d : Cursor}
    (h : (operand c).result? = some (e, d)) :
    ∃ w, c.ahead = .leftParen :: (w ++ .rightParen :: d.ahead) ∧ Spells lowestPriority w e := by
  rw [operand, result?_look] at h
  obtain ⟨t, ht, h⟩ := h
  cases hc.symm.trans ht
  obtain ⟨_, b, _, hstep, -, h⟩ := result?_take.mp h
  obtain ⟨inner, a, _, hinner, h⟩ := Outcome.result?_bind.mp h
  obtain ⟨w, u, hw, hs, -, -⟩ := expression_sound lowestPriority b hinner
  obtain ⟨s, hs', h⟩ := result?_look.mp h
  split at h
  · obtain ⟨_, f, _, hstep', -, h⟩ := result?_take.mp h
    cases h
    exact ⟨w, by rw [ahead_of_advance ht hstep, hw, ahead_of_advance hs' hstep'], hs⟩
  · cases h
termination_by (c.unread.length, 0)

theorem arguments_sound (c : Cursor) {as : List Expr} {d : Cursor} (h : (arguments c).result? = some (as, d)) :
    ∃ w, c.ahead = w ++ .rightParen :: d.ahead ∧ SpellsAll w as := by
  rw [arguments, Outcome.result?_bind] at h
  obtain ⟨first, b, _, hfirst, h⟩ := h
  obtain ⟨v, _, hv, hs, -, -⟩ := expression_sound lowestPriority c hfirst
  obtain ⟨t, ht, h⟩ := result?_look.mp h
  split at h
  · obtain ⟨_, a, _, hstep, -, h⟩ := result?_take.mp h
    obtain ⟨rest, f, _, hrest, h⟩ := Outcome.result?_bind.mp h
    cases h
    obtain ⟨w, hw, hss⟩ := arguments_sound a hrest
    refine ⟨_, ?_, .more hs hss⟩
    rw [hv, ahead_of_advance ht hstep, hw]
    simp
  · obtain ⟨_, a, _, hstep, -, h⟩ := result?_take.mp h
    cases h
    exact ⟨v, by rw [hv, ahead_of_advance ht hstep], .one hs⟩
  · cases h
termination_by (c.unread.length, 3)

end

/-! ## Completeness -/

section Completeness

variable {floor : Nat} {left : Expr} {o : String} {ts : List Token} {r : Expr × Cursor}

/-- On a token that stops the expression, no operator follows. -/
theorem operators_stop {n : Nat} {t : Token} (h : Stops floor t) (hn : (on (t :: ts)).unread.length < n) :
    (operators floor left (on (t :: ts)) hn).result? = some (left, on (t :: ts)) := by
  rw [operators, result?_look]
  refine ⟨t, rfl, ?_⟩
  split
  · rename_i o
    cases h with
    | operator hle => rw [if_neg (Nat.not_lt.mpr hle)]; rfl
  · rename_i hno
    rw [if_pos (h.endsExpression fun o => hno o)]
    rfl

/-- On an operator above the floor, the right operand follows and then the operators behind it. -/
theorem operators_more {right : Expr} {us : List Token} (hp : floor < priority o)
    (hright : (expression (priority o) (on ts)).result? = some (right, on us)) (hts : ts ≠ [])
    (hrest : ∀ n hn, (operators (n := n) floor (.binary o left right) (on us) hn).result? = some r) {n : Nat}
    (hn : (on (.operator o :: ts)).unread.length < n) :
    (operators floor left (on (.operator o :: ts)) hn).result? = some r := by
  rw [operators, result?_look]
  refine ⟨_, rfl, ?_⟩
  simp only [if_pos hp]
  obtain ⟨u, us', rfl⟩ := List.exists_cons_of_ne_nil hts
  refine result?_take.mpr ⟨u, on (u :: us'), Nat.lt_succ_self _, rfl, rfl, ?_⟩
  exact Outcome.result?_bind_of hright (hrest _ _)

theorem operand_literal {l : Literal} (hts : ts ≠ []) :
    (operand (on (.literal l :: ts))).result? = some (.literal l, on ts) := by
  obtain ⟨t, us, rfl⟩ := List.exists_cons_of_ne_nil hts
  rw [operand]
  rfl

theorem operand_identifier {name : String} {t : Token} (h : Stops floor t) :
    (operand (on (.identifier name :: t :: ts))).result? = some (.identifier name, on (t :: ts)) := by
  rw [operand]
  cases h <;> rfl

theorem operand_call {name : String} {as : List Expr} {us : List Token}
    (h : (arguments (on us)).result? = some (as, on ts)) (hus : us ≠ []) :
    (operand (on (.identifier name :: .leftParen :: us))).result? = some (.call name as, on ts) := by
  obtain ⟨u, us', rfl⟩ := List.exists_cons_of_ne_nil hus
  rw [operand]
  exact Outcome.result?_bind_of h rfl

theorem operand_parens {e : Expr} {us : List Token}
    (h : (expression lowestPriority (on us)).result? = some (e, on (.rightParen :: ts))) (hus : us ≠ []) (hts : ts ≠ []) :
    (operand (on (.leftParen :: us))).result? = some (e, on ts) := by
  obtain ⟨u, us', rfl⟩ := List.exists_cons_of_ne_nil hus
  obtain ⟨t, ts', rfl⟩ := List.exists_cons_of_ne_nil hts
  rw [operand]
  exact Outcome.result?_bind_of h rfl

theorem arguments_one {a : Expr} {us : List Token}
    (h : (expression lowestPriority (on us)).result? = some (a, on (.rightParen :: ts))) (hts : ts ≠ []) :
    (arguments (on us)).result? = some ([a], on ts) := by
  obtain ⟨t, ts', rfl⟩ := List.exists_cons_of_ne_nil hts
  rw [arguments]
  exact Outcome.result?_bind_of h rfl

theorem arguments_more {a : Expr} {as : List Expr} {us vs : List Token}
    (h : (expression lowestPriority (on us)).result? = some (a, on (.comma :: vs)))
    (hrest : (arguments (on vs)).result? = some (as, on ts)) (hvs : vs ≠ []) :
    (arguments (on us)).result? = some (a :: as, on ts) := by
  obtain ⟨v, vs', rfl⟩ := List.exists_cons_of_ne_nil hvs
  rw [arguments]
  refine Outcome.result?_bind_of h ?_
  exact Outcome.result?_bind_of hrest rfl

/-- An atom is the left operand of the operators behind it. -/
theorem expression_of_operand {us : List Token} {t : Token}
    (h : (operand (on us)).result? = some (left, on (t :: ts)))
    (hrest : ∀ n hn, (operators (n := n) floor left (on (t :: ts)) hn).result? = some r) :
    (expression floor (on us)).result? = some r := by
  rw [expression]
  exact Outcome.result?_bind_of h (hrest _ _)

/-- Where `w` spells `e`, the parser reads `w` as `e` and goes on with the operators behind it. The floor of the parser may
be lower than that of the spelling, and the next operator one step above it: then `e` becomes its left operand. -/
theorem Spells.expression {p : Nat} {w : List Token} {e : Expr} (h : Spells p w e) :
    ∀ floor ≤ p, ∀ t ts r, Stops (p + 1) t →
      (∀ n hn, (operators (n := n) floor e (on (t :: ts)) hn).result? = some r) →
      (expression floor (on (w ++ t :: ts))).result? = some r := by
  induction h using Spells.rec (motive_2 := fun w as _ =>
    ∀ t ts, (arguments (on (w ++ .rightParen :: t :: ts))).result? = some (as, on (t :: ts))) with
  | literal =>
    intro floor _ t ts r _ hrest
    exact expression_of_operand (operand_literal (List.cons_ne_nil t ts)) hrest
  | identifier =>
    intro floor _ t ts r hstop hrest
    exact expression_of_operand (operand_identifier hstop) hrest
  | call _ ih =>
    intro floor _ t ts r _ hrest
    rw [List.cons_append, List.cons_append, List.append_assoc]
    exact expression_of_operand (operand_call (ih t ts) (by simp)) hrest
  | parens hs ih =>
    intro floor _ t ts r _ hrest
    have hinner := ih _ (Nat.le_refl _) .rightParen (t :: ts) _ .rightParen fun _ hn => operators_stop .rightParen hn
    rw [List.cons_append, List.append_assoc]
    exact expression_of_operand (operand_parens hinner (by simp) (by simp)) hrest
  | @binary p o v w l r hp _ hr ihl ihr =>
    intro floor hle t ts res hstop hrest
    have hright := ihr _ (Nat.le_refl _) t ts _ (hstop.mono (by omega)) fun _ hn => operators_stop (hstop.mono hp) hn
    rw [List.append_assoc]
    exact ihl floor (by omega) (.operator o) (w ++ t :: ts) res (.operator (by omega)) fun _ hn =>
      operators_more (Nat.lt_of_le_of_lt hle hp) hright (by simp) hrest hn
  | one _ ih t ts =>
    have hone := ih _ (Nat.le_refl _) .rightParen (t :: ts) _ .rightParen fun _ hn => operators_stop .rightParen hn
    exact arguments_one hone (by simp)
  | @more v w _ _ _ _ ih ihs t ts =>
    have hfirst := ih _ (Nat.le_refl _) .comma (w ++ .rightParen :: t :: ts) _ .comma fun _ hn => operators_stop .comma hn
    rw [List.append_assoc]
    exact arguments_more hfirst (ihs t ts) (by simp)

/-- **Completeness**: the parser reads a spelling in front of a token that stops it, and no further. -/
theorem expression_complete {w : List Token} {e : Expr} {t : Token} (ts : List Token) (h : Spells floor w e)
    (hstop : Stops floor t) : (Grammar.expression floor (on (w ++ t :: ts))).result? = some (e, on (t :: ts)) :=
  h.expression floor (Nat.le_refl _) t ts _ (hstop.mono (Nat.le_succ _)) fun _ hn => operators_stop hstop hn

end Completeness

/-! ## Exactness -/

/-- The tokens `ts` begin with a spelling `w` of `e` that an expression above `floor` may end behind. -/
def Begins (floor : Nat) (ts w : List Token) (e : Expr) : Prop :=
  ∃ t rest, ts = w ++ t :: rest ∧ Spells floor w e ∧ Stops floor t

/-- The parser matches exactly where the tokens begin with a spelling in front of a token that stops it. -/
theorem result?_expression_iff {floor : Nat} {t : Token} {ts : List Token} {e : Expr} {d : Cursor} :
    (expression floor (on (t :: ts))).result? = some (e, d) ↔
      ∃ w u rest, t :: ts = w ++ u :: rest ∧ d = on (u :: rest) ∧ Spells floor w e ∧ Stops floor u := by
  constructor
  · intro h
    obtain ⟨w, u, hw, hs, hu, hstop⟩ := expression_sound floor _ h
    rw [ahead_of_current hu] at hw
    exact ⟨w, u, d.unread, hw, by rw [← ahead_of_current hu, on_ahead hu], hs, hstop⟩
  · rintro ⟨w, u, rest, hw, rfl, hs, hstop⟩
    rw [hw]
    exact expression_complete rest hs hstop

/-- Tokens begin with one spelling at most. -/
theorem Begins.unique {floor : Nat} {ts w₁ w₂ : List Token} {e₁ e₂ : Expr} (h₁ : Begins floor ts w₁ e₁)
    (h₂ : Begins floor ts w₂ e₂) : w₁ = w₂ ∧ e₁ = e₂ := by
  obtain ⟨t₁, rest₁, rfl, hs₁, hstop₁⟩ := h₁
  obtain ⟨t₂, rest₂, hw, hs₂, hstop₂⟩ := h₂
  have hsame := (expression_complete rest₁ hs₁ hstop₁).symm.trans (hw ▸ expression_complete rest₂ hs₂ hstop₂)
  simp only [on_cons, Option.some.injEq, Prod.mk.injEq, Cursor.mk.injEq] at hsame
  obtain ⟨he, rfl, rfl⟩ := hsame
  exact ⟨List.append_cancel_right hw, he⟩

/-- **Expressions are parsed exactly.** On tokens `w ++ t :: rest` the parser reads `w` as `e` and stops on `t` if and only
if `w` spells `e` and an expression may end in front of `t`. It fails where no split of the tokens is of that kind, and
there is one such spelling at most. -/
theorem expression_exact (floor : Nat) (t₀ : Token) (ts₀ : List Token) :
    (∀ w t rest e, t₀ :: ts₀ = w ++ t :: rest →
      ((expression floor ⟨some t₀, ts₀⟩).result? = some (e, ⟨some t, rest⟩) ↔ Spells floor w e ∧ Stops floor t)) ∧
    ((expression floor ⟨some t₀, ts₀⟩).Fails ↔
      ∀ w t rest e, t₀ :: ts₀ = w ++ t :: rest → ¬ (Spells floor w e ∧ Stops floor t)) ∧
    ∀ w₁ e₁ w₂ e₂, Begins floor (t₀ :: ts₀) w₁ e₁ → Begins floor (t₀ :: ts₀) w₂ e₂ → w₁ = w₂ ∧ e₁ = e₂ := by
  refine ⟨fun w t rest e hsplit => ?_, ?_, fun _ _ _ _ h₁ h₂ => h₁.unique h₂⟩
  · refine result?_expression_iff.trans ⟨?_, fun ⟨hs, hstop⟩ => ⟨w, t, rest, hsplit, rfl, hs, hstop⟩⟩
    rintro ⟨v, u, us, hv, hd, hs, hstop⟩
    cases hd
    obtain rfl : w = v := List.append_cancel_right (hsplit.symm.trans hv)
    exact ⟨hs, hstop⟩
  · rw [(started_expression floor ⟨some t₀, ts₀⟩ rfl).fails_iff, Option.eq_none_iff_forall_ne_some]
    constructor
    · rintro hnone w t rest e hsplit ⟨hs, hstop⟩
      exact hnone _ (result?_expression_iff.mpr ⟨w, t, rest, hsplit, rfl, hs, hstop⟩)
    · rintro hno ⟨e, d⟩ h
      obtain ⟨w, t, rest, hsplit, -, hs, hstop⟩ := result?_expression_iff.mp h
      exact hno w t rest e hsplit ⟨hs, hstop⟩

/-- Operators of one priority group from the left: `a - b - c`, in front of a comma. -/
theorem expression_exact_differences :
    Spells 0 [.identifier "a", .operator "-", .identifier "b", .operator "-", .identifier "c"]
      (.binary "-" (.binary "-" (.identifier "a") (.identifier "b")) (.identifier "c")) ∧ Stops 0 .comma ∧
    (expression 0 ⟨some (.identifier "a"),
        [.operator "-", .identifier "b", .operator "-", .identifier "c", .comma]⟩).result? =
      some (.binary "-" (.binary "-" (.identifier "a") (.identifier "b")) (.identifier "c"), ⟨some .comma, []⟩) := by
  have hleft : Spells 2 [.identifier "a", .operator "-", .identifier "b"]
      (.binary "-" (.identifier "a") (.identifier "b")) :=
    .binary (v := [.identifier "a"]) (by decide) .identifier .identifier
  have hwhole : Spells 0 [.identifier "a", .operator "-", .identifier "b", .operator "-", .identifier "c"]
      (.binary "-" (.binary "-" (.identifier "a") (.identifier "b")) (.identifier "c")) :=
    .binary (v := [.identifier "a", .operator "-", .identifier "b"]) (by decide) hleft .identifier
  exact ⟨hwhole, .comma, ((expression_exact 0 _ _).1 _ _ _ _ rfl).mpr ⟨hwhole, .comma⟩⟩

end Parlance.Grammar
