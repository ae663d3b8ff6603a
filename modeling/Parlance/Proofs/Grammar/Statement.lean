import Parlance.Grammar.Statement
import Parlance.Proofs.Grammar.Expression
import Parlance.Proofs.Grammar.Sentence

/-!
# Statements and blocks are parsed exactly

* **Soundness** (`statement_sound`, `block_sound`): the tokens that a match took spell the statement or the block.
* **Completeness** (`SpellsSimple.statement`, `SpellsConditional.statement`, `SpellsBlock.block`): spellings are read, and
  nothing more.

A simple statement is read in front of a closing token, a conditional in front of any token but one that goes on with it.
The cursor stops on the first token behind a statement, and on the closing brace of a block.
-/

namespace Parlance.Grammar

open Cursor

/-! ## Soundness -/

theorem declaration_sound {b : Binding} {c d : Cursor} {s : Statement} (hc : c.current = some (.keyword (.binding b)))
    (h : (declaration b c).result? = some (s, d)) :
    ∃ name type v w t, s = .declaration b name type v ∧ c.ahead = w ++ d.ahead ∧ SpellsSimple w s ∧
      d.current = some t ∧ t ∈ closers := by
  obtain ⟨name, c₁, _, h₁, hn₁, h⟩ := result?_expectName.mp h
  obtain ⟨c₂, _, h₂, hn₂, h⟩ := result?_expect.mp h
  obtain ⟨type, c₃, _, h₃, hn₃, h⟩ := result?_expectName.mp h
  obtain ⟨c₄, _, h₄, hn₄, h⟩ := result?_expect.mp h
  obtain ⟨_, c₅, _, h₅, -, h⟩ := result?_take.mp h
  obtain ⟨v, c₆, _, hv, h⟩ := Outcome.result?_bind.mp h
  cases h
  obtain ⟨w, t, hw, hs, ht, hstop⟩ := expression_sound lowestPriority c₅ hv
  refine ⟨name, type, v, _, t, rfl, ?_, .declaration hs, ht, stops_lowest_iff.mp hstop⟩
  rw [ahead_of_advance hc h₁, ahead_of_advance hn₁ h₂, ahead_of_advance hn₂ h₃, ahead_of_advance hn₃ h₄,
    ahead_of_advance hn₄ h₅, hw]
  simp

mutual

theorem block_sound (c : Cursor) (hc : c.current = some .leftCurl) {b : Block} {d : Cursor}
    (h : (block c).result? = some (b, d)) :
    ∃ w, c.ahead = w ++ d.unread ∧ SpellsBlock w b ∧ d.current = some .rightCurl := by
  rw [block] at h
  obtain ⟨_, a, ha, hstep, -, h⟩ := result?_take.mp h
  obtain ⟨w, hw, hs, hd⟩ := items_sound a ha h
  refine ⟨_, ?_, .braces hs, hd⟩
  rw [ahead_of_advance hc hstep, hw, ahead_of_current hd]
  simp
termination_by (c.unread.length, 0)

theorem items_sound {n : Nat} (c : Cursor) (hc : c.unread.length < n) {b : Block} {d : Cursor}
    (h : (items c hc).result? = some (b, d)) :
    ∃ w, c.ahead = w ++ d.ahead ∧ SpellsItems w b ∧ d.current = some .rightCurl := by
  rw [items, result?_look] at h
  obtain ⟨t, ht, h⟩ := h
  split at h
  · cases h
    exact ⟨[], rfl, .nil, ht⟩
  · obtain ⟨_, a, _, hstep, -, h⟩ := result?_take.mp h
    obtain ⟨w, hw, hs, hd⟩ := items_sound a _ h
    exact ⟨.newLine :: w, by rw [ahead_of_advance ht hstep, hw]; rfl, .newLine hs, hd⟩
  · obtain ⟨first, a, _, hfirst, h⟩ := Outcome.result?_bind.mp h
    obtain ⟨rest, e, _, hrest, h⟩ := Outcome.result?_bind.mp h
    cases h
    obtain ⟨v, hv, hcase⟩ := statement_sound c hfirst
    obtain ⟨w, hw, hs, hd⟩ := items_sound a _ hrest
    refine ⟨v ++ w, by rw [hv, hw, List.append_assoc], ?_, hd⟩
    rcases hcase with ⟨hcond, -⟩ | ⟨hsimple, u, hu, hclose⟩
    · exact .conditional hcond hs
    · refine .simple hsimple hs fun x hx => ?_
      -- an item starts on the closing token, so that can only be a line break
      have hxu : x = u := by
        obtain ⟨ws, rfl⟩ := List.head?_eq_some_iff.mp hx
        rw [ahead_of_current hu, List.cons_append, List.cons.injEq] at hw
        exact hw.1.symm
      subst hxu
      rcases hs.head x hx with rfl | hopen
      · rfl
      · simp only [closers, List.mem_cons, List.not_mem_nil, or_false] at hclose
        rcases hclose with rfl | rfl | rfl | rfl | rfl <;> first | rfl | cases hopen
termination_by (c.unread.length, 2)

/-- A statement is a conditional, or a simple one with a closing token behind it. -/
theorem statement_sound (c : Cursor) {s : Statement} {d : Cursor} (h : (statement c).result? = some (s, d)) :
    ∃ w, c.ahead = w ++ d.ahead ∧ (SpellsConditional w s ∧ d.current.isSome ∨
      SpellsSimple w s ∧ ∃ t, d.current = some t ∧ t ∈ closers) := by
  rw [statement, result?_look] at h
  obtain ⟨t, ht, h⟩ := h
  split at h
  · obtain ⟨_, _, _, w, u, rfl, hw, hs, hu, hclose⟩ := declaration_sound ht h
    exact ⟨w, hw, .inr ⟨hs, u, hu, hclose⟩⟩
  · obtain ⟨_, a, _, hstep, -, h⟩ := result?_take.mp h
    obtain ⟨v, e, _, hv, h⟩ := Outcome.result?_bind.mp h
    cases h
    obtain ⟨w, u, hw, hs, hu, hstop⟩ := expression_sound lowestPriority a hv
    exact ⟨_, by rw [ahead_of_advance ht hstep, hw]; rfl, .inr ⟨.returns hs, u, hu, stops_lowest_iff.mp hstop⟩⟩
  · obtain ⟨w, hw, hs, hd⟩ := conditional_sound c ht h
    exact ⟨w, hw, .inl ⟨hs, hd⟩⟩
  · rw [Outcome.result?_map] at h
    obtain ⟨⟨v, e⟩, hv, h⟩ := Option.map_eq_some_iff.mp h
    cases h
    obtain ⟨w, u, hw, hs, hu, hstop⟩ := expression_sound lowestPriority c hv
    exact ⟨w, hw, .inr ⟨.expression hs, u, hu, stops_lowest_iff.mp hstop⟩⟩
termination_by (c.unread.length, 1)

theorem conditional_sound (c : Cursor) (hc : c.current = some (.keyword .condition)) {s : Statement} {d : Cursor}
    (h : (conditional c).result? = some (s, d)) :
    ∃ w, c.ahead = w ++ d.ahead ∧ SpellsConditional w s ∧ d.current.isSome := by
  rw [conditional] at h
  obtain ⟨c₁, _, h₁, hn₁, h⟩ := result?_expect.mp h
  obtain ⟨e, c₂, _, he, h⟩ := Outcome.result?_bind.mp h
  obtain ⟨v, hv, hs⟩ := parens_sound c₁ hn₁ he
  obtain ⟨t, ht, h⟩ := result?_look.mp h
  split at h
  · obtain ⟨body, c₃, _, hbody, h⟩ := Outcome.result?_bind.mp h
    obtain ⟨w, hw, hb, hn₃⟩ := block_sound c₂ ht hbody
    obtain ⟨u, c₄, _, h₄, hn₄, h⟩ := result?_take.mp h
    split at h
    · obtain ⟨c₅, _, h₅, hn₅, h⟩ := result?_expect.mp h
      obtain ⟨alternative, c₆, _, halt, h⟩ := Outcome.result?_bind.mp h
      obtain ⟨x, hx, hb', hn₆⟩ := block_sound c₅ hn₅ halt
      obtain ⟨u', c₇, _, h₇, hn₇, h⟩ := result?_take.mp h
      cases h
      refine ⟨_, ?_, .ifElse hs hb hb', by rw [hn₇]; rfl⟩
      rw [ahead_of_advance hc h₁, hv, hw, unread_of_advance h₄, ahead_of_advance hn₄ h₅, hx, unread_of_advance h₇]
      simp
    · cases h
      refine ⟨_, ?_, .ifThen hs hb, by rw [hn₄]; rfl⟩
      rw [ahead_of_advance hc h₁, hv, hw, unread_of_advance h₄]
      simp
  · cases h
termination_by (c.unread.length, 0)

end

/-! ## Completeness -/

section Completeness

variable {t : Token} {ts : List Token}

theorem declaration_complete {b : Binding} {name type : String} {w : List Token} {e : Expr} (h : Spells lowestPriority w e)
    (ht : t ∈ closers) :
    (declaration b (on (.keyword (.binding b) :: .identifier name :: .colon :: .identifier type :: .operator "=" ::
      (w ++ t :: ts)))).result? = some (.declaration b name type e, on (t :: ts)) := by
  have hvalue := expression_complete ts h (stops_lowest_iff.mpr ht)
  obtain ⟨u, us, hus⟩ := List.exists_cons_of_ne_nil (List.append_ne_nil_of_right_ne_nil w (List.cons_ne_nil t ts))
  rw [hus] at hvalue ⊢
  exact Outcome.result?_bind_of hvalue rfl

theorem returns_complete {w : List Token} {e : Expr} (h : Spells lowestPriority w e) (ht : t ∈ closers) :
    (statement (on (.keyword .returns :: (w ++ t :: ts)))).result? = some (.returns e, on (t :: ts)) := by
  have hvalue := expression_complete ts h (stops_lowest_iff.mpr ht)
  obtain ⟨u, us, hus⟩ := List.exists_cons_of_ne_nil (List.append_ne_nil_of_right_ne_nil w (List.cons_ne_nil t ts))
  rw [hus] at hvalue ⊢
  rw [statement]
  exact Outcome.result?_bind_of hvalue rfl

theorem expressionStatement_complete {w : List Token} {e : Expr} (h : Spells lowestPriority w e) (ht : t ∈ closers) :
    (statement (on (w ++ t :: ts))).result? = some (.expression e, on (t :: ts)) := by
  have hvalue := expression_complete ts h (stops_lowest_iff.mpr ht)
  obtain ⟨u, us, rfl, hu⟩ := h.head
  rw [statement, result?_look]
  refine ⟨u, rfl, ?_⟩
  split
  · cases hu
  · cases hu
  · cases hu
  · rw [Outcome.result?_map, hvalue]
    rfl

/-- A simple statement is read in front of a closing token. -/
theorem SpellsSimple.statement {w : List Token} {s : Statement} (h : SpellsSimple w s) (ht : t ∈ closers)
    (ts : List Token) : (statement (on (w ++ t :: ts))).result? = some (s, on (t :: ts)) := by
  cases h with
  | declaration hs =>
    rw [Grammar.statement]
    exact declaration_complete hs ht
  | returns hs => exact returns_complete hs ht
  | expression hs => exact expressionStatement_complete hs ht

/-- The first item of a block is read, and then the rest. -/
theorem items_cons {s : Statement} {b : Block} {us : List Token} {d : Cursor} (ht : opensStatement t = true)
    (hs : (statement (on (t :: ts))).result? = some (s, on us))
    (hrest : ∀ n hn, (items (n := n) (on us) hn).result? = some (b, d)) {n : Nat}
    (hn : (on (t :: ts)).unread.length < n) : (items (on (t :: ts)) hn).result? = some (s :: b, d) := by
  rw [items, result?_look]
  refine ⟨t, rfl, ?_⟩
  split
  · cases ht
  · cases ht
  · refine Outcome.result?_bind_of hs ?_
    have hlt : d.unread.length < n :=
      Outcome.unread_length_of_result? (hrest n (Nat.lt_trans (Outcome.unread_length_of_result? hs) hn))
    exact Outcome.result?_bind.mpr ⟨b, d, hlt, hrest _ _, rfl⟩

theorem block_items {b : Block} {d : Cursor} (hts : ts ≠ [])
    (h : ∀ n hn, (items (n := n) (on ts) hn).result? = some (b, d)) : (block (on (.leftCurl :: ts))).result? = some (b, d) := by
  obtain ⟨u, us, rfl⟩ := List.exists_cons_of_ne_nil hts
  rw [block]
  exact h _ _

theorem items_newLine {b : Block} {d : Cursor} (hts : ts ≠ [])
    (h : ∀ n hn, (items (n := n) (on ts) hn).result? = some (b, d)) {n : Nat} (hn : (on (.newLine :: ts)).unread.length < n) :
    (items (on (.newLine :: ts)) hn).result? = some (b, d) := by
  obtain ⟨u, us, rfl⟩ := List.exists_cons_of_ne_nil hts
  rw [items]
  exact h _ _

section Conditional

variable {e : Expr} {body : Block} {us ws : List Token}

theorem conditional_ifThen (hcond : (operand (on (.leftParen :: us))).result? = some (e, on (.leftCurl :: ws)))
    (hbody : (block (on (.leftCurl :: ws))).result? = some (body, on (.rightCurl :: t :: ts)))
    (ht : t ≠ .keyword .otherwise) :
    (conditional (on (.keyword .condition :: .leftParen :: us))).result? = some (.ifThen e body, on (t :: ts)) := by
  rw [conditional]
  refine Outcome.result?_bind_of hcond ?_
  refine Outcome.result?_bind_of hbody ?_
  refine result?_take.mpr ⟨t, on (t :: ts), Nat.lt_succ_self _, rfl, rfl, ?_⟩
  split
  · exact absurd rfl ht
  · rfl

theorem conditional_ifElse {alternative : Block} {xs : List Token}
    (hcond : (operand (on (.leftParen :: us))).result? = some (e, on (.leftCurl :: ws)))
    (hbody : (block (on (.leftCurl :: ws))).result? = some (body, on (.rightCurl :: .keyword .otherwise :: .leftCurl :: xs)))
    (halt : (block (on (.leftCurl :: xs))).result? = some (alternative, on (.rightCurl :: t :: ts))) :
    (conditional (on (.keyword .condition :: .leftParen :: us))).result? =
      some (.ifElse e body alternative, on (t :: ts)) := by
  rw [conditional]
  refine Outcome.result?_bind_of hcond ?_
  refine Outcome.result?_bind_of hbody ?_
  exact Outcome.result?_bind_of halt rfl

end Conditional

theorem SpellsBlock.eq_cons {w : List Token} {b : Block} (h : SpellsBlock w b) : ∃ v, w = .leftCurl :: v := by
  cases h with
  | braces => exact ⟨_, rfl⟩

/-- A condition is read up to the brace behind its closing parenthesis. -/
theorem condition_complete {v ws : List Token} {e : Expr} (h : Spells lowestPriority v e) :
    (operand (on (.leftParen :: (v ++ .rightParen :: .leftCurl :: ws)))).result? = some (e, on (.leftCurl :: ws)) :=
  operand_parens (expression_complete _ h .rightParen) (by simp) (by simp)

/-- Behind an item of a block stands the next one or the closing brace, and neither goes on with a conditional. -/
theorem SpellsItems.next {w : List Token} {b : Block} (h : SpellsItems w b) (ts : List Token) :
    ∃ u us, w ++ .rightCurl :: ts = u :: us ∧ u ≠ .keyword .otherwise ∧
      ((∀ t ∈ w.head?, t = .newLine) → u ∈ closers) := by
  cases w with
  | nil => exact ⟨_, _, rfl, nofun, fun _ => by simp [closers]⟩
  | cons u us =>
    refine ⟨u, _, rfl, ?_, fun hsep => ?_⟩
    · rintro rfl
      rcases h.head _ rfl with hu | hu
      · cases hu
      · cases hu
    · rw [hsep u rfl]
      simp [closers]

mutual

/-- A conditional is read in front of any token that does not go on with it. -/
theorem SpellsConditional.statement {w : List Token} {s : Statement} : SpellsConditional w s → ∀ t ts,
    t ≠ .keyword .otherwise → (statement (on (w ++ t :: ts))).result? = some (s, on (t :: ts))
  | .ifThen hs hb, t, ts, ht => by
    obtain ⟨w, rfl⟩ := hb.eq_cons
    rw [List.cons_append, List.cons_append, List.append_assoc, Grammar.statement]
    exact conditional_ifThen (condition_complete hs) (hb.block (t :: ts)) ht
  | .ifElse hs hb hb', t, ts, _ => by
    obtain ⟨w, rfl⟩ := hb.eq_cons
    obtain ⟨x, rfl⟩ := hb'.eq_cons
    rw [List.cons_append, List.cons_append, List.append_assoc, List.cons_append, List.append_assoc, Grammar.statement]
    exact conditional_ifElse (condition_complete hs) (hb.block _) (hb'.block (t :: ts))

/-- A block is read up to its closing brace. -/
theorem SpellsBlock.block {w : List Token} {b : Block} : SpellsBlock w b → ∀ ts,
    (block (on (w ++ ts))).result? = some (b, on (.rightCurl :: ts))
  | .braces hs, ts => by
    rw [List.cons_append, List.append_assoc]
    exact block_items (by simp) (hs.items ts)

theorem SpellsItems.items {w : List Token} {b : Block} : SpellsItems w b → ∀ ts n hn,
    (items (n := n) (on (w ++ .rightCurl :: ts)) hn).result? = some (b, on (.rightCurl :: ts))
  | .nil, ts, n, hn => by
    rw [Grammar.items]
    rfl
  | .newLine hs, ts, n, hn => items_newLine (by simp) (hs.items ts) hn
  | .conditional hs hb, ts, n, hn => by
    obtain ⟨u, us, hus, hu, -⟩ := hb.next ts
    have hfirst := hs.statement u us hu
    obtain ⟨t, vs, rfl, ht⟩ := hs.head
    rw [← hus] at hfirst
    simp only [List.append_assoc] at hn ⊢
    exact items_cons ht hfirst (hb.items ts) hn
  | .simple hs hb hsep, ts, n, hn => by
    obtain ⟨u, us, hus, -, hu⟩ := hb.next ts
    obtain ⟨t, vs, rfl, ht⟩ := hs.head
    have hfirst := hs.statement (hu hsep) us
    rw [← hus] at hfirst
    simp only [List.append_assoc] at hn ⊢
    exact items_cons ht hfirst (hb.items ts) hn

end

end Completeness

end Parlance.Grammar
