import Parlance.Proofs.Grammar.File
import Parlance.Proofs.Tree.Payload

/-!
# Two parses in step

Two token streams that differ in their literals, and in how many line breaks stand where some do, are parsed in step. A
**simulation** relates the cursors of the two parses: related cursors see the same token up to the literal, a step from
any token but a line break leads to related cursors again, and so does the way over line breaks. It is all that a
production needs: from related cursors, both match or neither does, with the same tree up to the literals and related
cursors behind it (`Agree`). The step over one line break is not among it, so the two places where the grammar takes line
breaks one by one, blocks and files, go over all of them at once.

That literals are not looked at is the simulation `replacing`.
-/

namespace Parlance

open Cursor

/-- A relation between the cursors of two parses that makes them go in step. -/
structure Simulation where
  /-- What becomes of a literal. -/
  payload : Literal → Literal
  related : Cursor → Cursor → Prop
  current {c d : Cursor} : related c d → d.current = c.current.map (Token.mapLiteral payload)
  advance {c d : Cursor} : related c d → c.current ≠ some .newLine →
    (c.advance = none ∧ d.advance = none) ∨ ∃ c' d', c.advance = some c' ∧ d.advance = some d' ∧ related c' d'
  skip {c d : Cursor} : related c d →
    (c.skipNewLines.1 = false ∧ d.skipNewLines.1 = false) ∨
      ∃ c' d', c.skipNewLines = (true, c') ∧ d.skipNewLines = (true, d') ∧ related c' d'

namespace Simulation

variable {S : Simulation} {α β : Type} {k l m n : Nat}

/-- Both outcomes match, with `f` between their values and related cursors behind them, or neither does. -/
def Agree (S : Simulation) (f : α → α) (o : Outcome α m) (o' : Outcome α n) : Prop :=
  (o.result? = none ∧ o'.result? = none) ∨
    ∃ a c d, o.result? = some (a, c) ∧ o'.result? = some (f a, d) ∧ S.related c d

/-! ## The combinators of productions -/

section Combinators

variable {f : α → α} {c d : Cursor}

theorem agree_matched {a b : α} (h : S.related c d) (hab : b = f a) (hc : c.unread.length < m) (hd : d.unread.length < n) :
    S.Agree f (.matched a c hc) (.matched b d hd) :=
  .inr ⟨a, c, d, rfl, by rw [hab]; rfl, h⟩

theorem agree_mismatched (c d : Cursor) : S.Agree f (.mismatched c : Outcome α m) (.mismatched d : Outcome α n) :=
  .inl ⟨rfl, rfl⟩

theorem agree_bind {g : β → β} {o : Outcome α k} {o' : Outcome α l}
    {next : α → (c : Cursor) → c.unread.length < k → Outcome β m}
    {next' : α → (c : Cursor) → c.unread.length < l → Outcome β n} (h : S.Agree f o o')
    (hnext : ∀ a c hc d hd, o.result? = some (a, c) → S.related c d → S.Agree g (next a c hc) (next' (f a) d hd)) :
    S.Agree g (o.bind next) (o'.bind next') := by
  rcases h with ⟨h, h'⟩ | ⟨a, c, d, h, h', hrel⟩
  · refine .inl ⟨?_, ?_⟩
    · cases o with
      | matched => cases h
      | _ => rfl
    · cases o' with
      | matched => cases h'
      | _ => rfl
  · cases o with
    | matched a c hc =>
      cases o' with
      | matched b d hd =>
        cases h
        cases h'
        exact hnext _ _ _ _ _ rfl hrel
      | _ => cases h'
    | _ => cases h

theorem agree_look {next : Token → Outcome α m} {next' : Token → Outcome α n} (h : S.related c d)
    (hnext : ∀ t, c.current = some t → S.Agree f (next t) (next' (t.mapLiteral S.payload))) :
    S.Agree f (c.look next) (d.look next') := by
  have hcurrent := S.current h
  unfold look
  cases hc : c.current with
  | none =>
    rw [hc] at hcurrent
    rw [hcurrent]
    exact .inl ⟨rfl, rfl⟩
  | some t =>
    rw [hc] at hcurrent
    rw [hcurrent]
    exact hnext t hc

theorem agree_take {next : Token → (e : Cursor) → e.unread.length < c.unread.length → Outcome α m}
    {next' : Token → (e : Cursor) → e.unread.length < d.unread.length → Outcome α n} (h : S.related c d)
    (hc : c.current ≠ some .newLine)
    (hnext : ∀ t e he e' he', e.current = some t → S.related e e' →
      S.Agree f (next t e he) (next' (t.mapLiteral S.payload) e' he')) : S.Agree f (c.take next) (d.take next') := by
  rcases S.advance h hc with ⟨hend, hend'⟩ | ⟨e, e', hstep, hstep', hrel⟩
  · obtain ⟨_, _ | _⟩ := c
    · obtain ⟨_, _ | _⟩ := d
      · exact .inl ⟨rfl, rfl⟩
      · cases hend'
    · cases hend
  · have hcurrent := S.current hrel
    obtain ⟨_, _ | ⟨t, ts⟩⟩ := c
    · cases hstep
    · obtain ⟨_, _ | ⟨u, us⟩⟩ := d
      · cases hstep'
      · cases hstep
        cases hstep'
        cases hcurrent
        exact hnext t _ _ _ _ rfl hrel

theorem agree_expect {t : Token} {next : (e : Cursor) → e.unread.length < c.unread.length → Outcome α m}
    {next' : (e : Cursor) → e.unread.length < d.unread.length → Outcome α n} (h : S.related c d)
    (hc : c.current ≠ some .newLine) (ht : ∀ l, t ≠ .literal l)
    (hnext : ∀ e he e' he', e.current = some t → S.related e e' → S.Agree f (next e he) (next' e' he')) :
    S.Agree f (c.expect t next) (d.expect t next') := by
  refine agree_take h hc fun u e _ e' _ hu hrel => ?_
  by_cases hut : u = t
  · subst hut
    rw [if_pos rfl, if_pos ((Token.mapLiteral_eq_iff ht).mpr rfl)]
    exact hnext e _ e' _ hu hrel
  · rw [if_neg hut, if_neg fun h => hut ((Token.mapLiteral_eq_iff ht).mp h)]
    exact agree_mismatched e e'

theorem agree_expectName {next : String → (e : Cursor) → e.unread.length < c.unread.length → Outcome α m}
    {next' : String → (e : Cursor) → e.unread.length < d.unread.length → Outcome α n} (h : S.related c d)
    (hc : c.current ≠ some .newLine)
    (hnext : ∀ name e he e' he', e.current = some (.identifier name) → S.related e e' →
      S.Agree f (next name e he) (next' name e' he')) : S.Agree f (c.expectName next) (d.expectName next') := by
  refine agree_take h hc fun u e _ e' _ hu hrel => ?_
  cases u with
  | identifier name => exact hnext name e _ e' _ hu hrel
  | _ => exact agree_mismatched e e'

theorem result?_takeOverNewLines_of_none {next : Token → (e : Cursor) → e.unread.length < c.unread.length → Outcome α m}
    (h : c.skipNewLines.1 = false) : (c.takeOverNewLines next).result? = none := by
  rw [takeOverNewLines_of_none (Prod.ext h rfl)]
  rfl

theorem agree_takeOverNewLines {next : Token → (e : Cursor) → e.unread.length < c.unread.length → Outcome α m}
    {next' : Token → (e : Cursor) → e.unread.length < d.unread.length → Outcome α n} (h : S.related c d)
    (hnext : ∀ t e he e' he', e.current = some t → S.related e e' →
      S.Agree f (next t e he) (next' (t.mapLiteral S.payload) e' he')) :
    S.Agree f (c.takeOverNewLines next) (d.takeOverNewLines next') := by
  rcases S.skip h with ⟨hend, hend'⟩ | ⟨e, e', hfound, hfound', hrel⟩
  · exact .inl ⟨result?_takeOverNewLines_of_none hend, result?_takeOverNewLines_of_none hend'⟩
  · rw [takeOverNewLines_of_found hfound, takeOverNewLines_of_found hfound']
    exact agree_look hrel fun t ht => hnext t e _ e' _ ht hrel

end Combinators

open Grammar

/-! ## Expressions -/

section Expressions

mutual

theorem agree_expression (floor : Nat) (c : Cursor) {d : Cursor} (h : S.related c d) :
    S.Agree (Expr.mapLiterals S.payload) (expression floor c) (expression floor d) := by
  rw [expression, expression]
  refine agree_bind (agree_operand c h) fun left e he e' he' _ hrel => ?_
  exact agree_operators floor left e hrel he he'
termination_by (c.unread.length, 1)

theorem agree_operators {m n : Nat} (floor : Nat) (left : Expr) (c : Cursor) {d : Cursor} (h : S.related c d)
    (hc : c.unread.length < m) (hd : d.unread.length < n) :
    S.Agree (Expr.mapLiterals S.payload) (operators floor left c hc)
      (operators floor (left.mapLiterals S.payload) d hd) := by
  rw [operators, operators]
  refine agree_look h fun t ht => ?_
  cases t with
  | operator o =>
    simp only [Token.mapLiteral]
    split
    · refine agree_take h (by rw [ht]; nofun) fun _ e he e' he' _ hrel => ?_
      refine agree_bind (agree_expression (priority o) e hrel) fun right g hg g' hg' _ hrel => ?_
      exact agree_operators floor (.binary o left right) g hrel _ _
    · exact agree_matched h rfl hc hd
  | literal l => exact agree_mismatched c d
  | _ =>
    simp only [Token.mapLiteral]
    split
    · exact agree_matched h rfl hc hd
    · exact agree_mismatched c d
termination_by (c.unread.length, 0)

theorem agree_operand (c : Cursor) {d : Cursor} (h : S.related c d) :
    S.Agree (Expr.mapLiterals S.payload) (operand c) (operand d) := by
  rw [operand, operand]
  refine agree_look h fun t ht => ?_
  cases t with
  | literal l =>
    exact agree_take h (by rw [ht]; nofun) fun _ e he e' he' _ hrel => agree_matched hrel rfl he he'
  | identifier name =>
    refine agree_take h (by rw [ht]; nofun) fun u e he e' he' hu hrel => ?_
    cases u with
    | leftParen =>
      refine agree_take hrel (by rw [hu]; nofun) fun _ g hg g' hg' _ hrel => ?_
      exact agree_bind (agree_arguments g hrel) fun as _ _ _ _ _ hrel => agree_matched hrel rfl _ _
    | operator => exact agree_matched hrel rfl he he'
    | literal => exact agree_mismatched e e'
    | _ =>
      simp only [Token.mapLiteral]
      split
      · exact agree_matched hrel rfl he he'
      · exact agree_mismatched e e'
  | leftParen =>
    refine agree_take h (by rw [ht]; nofun) fun _ e he e' he' _ hrel => ?_
    refine agree_bind (agree_expression lowestPriority e hrel) fun inner g hg g' hg' _ hrel => ?_
    refine agree_look hrel fun u hu => ?_
    cases u with
    | rightParen =>
      exact agree_take hrel (by rw [hu]; nofun) fun _ _ _ _ _ _ hrel => agree_matched hrel rfl _ _
    | _ => exact agree_mismatched g g'
  | _ => exact agree_mismatched c d
termination_by (c.unread.length, 0)

theorem agree_arguments (c : Cursor) {d : Cursor} (h : S.related c d) :
    S.Agree (Expr.mapAllLiterals S.payload) (arguments c) (arguments d) := by
  rw [arguments, arguments]
  refine agree_bind (agree_expression lowestPriority c h) fun first e he e' he' _ hrel => ?_
  refine agree_look hrel fun t ht => ?_
  cases t with
  | comma =>
    refine agree_take hrel (by rw [ht]; nofun) fun _ g hg g' hg' _ hrel => ?_
    exact agree_bind (agree_arguments g hrel) fun _ _ _ _ _ _ hrel => agree_matched hrel rfl _ _
  | rightParen =>
    exact agree_take hrel (by rw [ht]; nofun) fun _ _ _ _ _ _ hrel => agree_matched hrel rfl _ _
  | _ => exact agree_mismatched e e'
termination_by (c.unread.length, 2)

end

end Expressions

/-! ## Statements -/

section Statements

theorem agree_declaration (b : Binding) {c d : Cursor} (h : S.related c d) (hc : c.current ≠ some .newLine) :
    S.Agree (Statement.mapLiterals S.payload) (declaration b c) (declaration b d) := by
  refine agree_expectName h hc fun name c₁ _ d₁ _ h₁ hrel₁ => ?_
  refine agree_expect hrel₁ (by rw [h₁]; nofun) nofun fun c₂ _ d₂ _ h₂ hrel₂ => ?_
  refine agree_expectName hrel₂ (by rw [h₂]; nofun) fun type c₃ _ d₃ _ h₃ hrel₃ => ?_
  refine agree_expect hrel₃ (by rw [h₃]; nofun) nofun fun c₄ _ d₄ _ h₄ hrel₄ => ?_
  refine agree_take hrel₄ (by rw [h₄]; nofun) fun _ c₅ _ d₅ _ _ hrel₅ => ?_
  exact agree_bind (agree_expression lowestPriority c₅ hrel₅) fun _ _ _ _ _ _ hrel => agree_matched hrel rfl _ _

/-- A block goes over all the line breaks in front of its next item. -/
theorem items_skip {n : Nat} (c : Cursor) (hc : c.unread.length < n) (ht : c.current = some .newLine) :
    (c.skipNewLines.1 = false → (items c hc).result? = none) ∧
      ∀ e (h : c.skipNewLines = (true, e)),
        (items c hc).result? = (items e (Nat.lt_trans (unread_length_of_skipNewLines h) hc)).result? := by
  obtain ⟨_, ts⟩ := c
  cases ht
  induction ts with
  | nil =>
    rw [items]
    exact ⟨fun _ => rfl, nofun⟩
  | cons t ts ih =>
    rw [items]
    by_cases hline : t = .newLine
    · subst hline
      exact ih (Nat.lt_of_succ_lt hc)
    · have hfound := overNewLines_lineBreaks 0 (some .newLine) ts hline
      refine ⟨fun h => ?_, fun e h => ?_⟩
      · exact absurd ((congrArg Prod.fst hfound).symm.trans h) nofun
      · cases hfound.symm.trans h
        rfl

mutual

theorem agree_block (c : Cursor) {d : Cursor} (h : S.related c d) (hc : c.current ≠ some .newLine) :
    S.Agree (Statement.mapAllLiterals S.payload) (block c) (block d) := by
  rw [block, block]
  exact agree_take h hc fun _ e he e' he' _ hrel => agree_items e hrel he he'
termination_by (c.unread.length, 0)

theorem agree_items {m n : Nat} (c : Cursor) {d : Cursor} (h : S.related c d) (hc : c.unread.length < m)
    (hd : d.unread.length < n) : S.Agree (Statement.mapAllLiterals S.payload) (items c hc) (items d hd) := by
  by_cases hline : c.current = some .newLine
  · have hline' : d.current = some .newLine := by rw [S.current h, hline]; rfl
    rcases S.skip h with ⟨hend, hend'⟩ | ⟨e, e', hfound, hfound', hrel⟩
    · exact .inl ⟨(items_skip c hc hline).1 hend, (items_skip d hd hline').1 hend'⟩
    · have he := unread_length_of_skipNewLines hfound
      rw [Agree, (items_skip c hc hline).2 e hfound, (items_skip d hd hline').2 e' hfound']
      exact agree_items e hrel _ _
  · rw [items, items]
    refine agree_look h fun t ht => ?_
    have hitem : S.Agree (Statement.mapAllLiterals S.payload)
        ((statement c).bind fun first e he =>
          (items (n := m) e (Nat.lt_trans he hc)).bind fun rest g hg => .matched (first :: rest) g hg)
        ((statement d).bind fun first e he =>
          (items (n := n) e (Nat.lt_trans he hd)).bind fun rest g hg => .matched (first :: rest) g hg) := by
      refine agree_bind (agree_statement c h hline) fun first e he e' he' _ hrel => ?_
      refine agree_bind (agree_items e hrel _ _) fun rest g hg g' hg' _ hrel => ?_
      exact agree_matched hrel rfl hg hg'
    cases t with
    | rightCurl => exact agree_matched h rfl hc hd
    | newLine => exact absurd ht hline
    | _ => exact hitem
termination_by (c.unread.length, 2)

theorem agree_statement (c : Cursor) {d : Cursor} (h : S.related c d) (hc : c.current ≠ some .newLine) :
    S.Agree (Statement.mapLiterals S.payload) (statement c) (statement d) := by
  rw [statement, statement]
  refine agree_look h fun t ht => ?_
  have hvalue : S.Agree (Statement.mapLiterals S.payload) ((expression lowestPriority c).map .expression)
      ((expression lowestPriority d).map .expression) :=
    agree_bind (agree_expression lowestPriority c h) fun _ _ he _ he' _ hrel => agree_matched hrel rfl he he'
  cases t with
  | keyword k =>
    cases k with
    | binding b => exact agree_declaration b h hc
    | returns =>
      refine agree_take h hc fun _ e he e' he' _ hrel => ?_
      exact agree_bind (agree_expression lowestPriority e hrel) fun _ _ _ _ _ _ hrel => agree_matched hrel rfl _ _
    | condition => exact agree_conditional c h hc
    | _ => exact hvalue
  | _ => exact hvalue
termination_by (c.unread.length, 1)

theorem agree_conditional (c : Cursor) {d : Cursor} (h : S.related c d) (hc : c.current ≠ some .newLine) :
    S.Agree (Statement.mapLiterals S.payload) (conditional c) (conditional d) := by
  rw [conditional, conditional]
  refine agree_expect h hc nofun fun c₁ _ d₁ _ h₁ hrel₁ => ?_
  refine agree_bind (agree_operand c₁ hrel₁) fun condition c₂ _ d₂ _ _ hrel₂ => ?_
  refine agree_look hrel₂ fun t ht => ?_
  cases t with
  | leftCurl =>
    refine agree_bind (agree_block c₂ hrel₂ (by rw [ht]; nofun)) fun body c₃ _ d₃ _ hbody hrel₃ => ?_
    obtain ⟨-, -, -, h₃⟩ := block_sound c₂ ht hbody
    refine agree_take hrel₃ (by rw [h₃]; nofun) fun u c₄ _ d₄ _ h₄ hrel₄ => ?_
    have hthen : ∀ hc₄ hd₄, S.Agree (Statement.mapLiterals S.payload)
        (.matched (.ifThen condition body) c₄ hc₄ : Outcome Statement c.unread.length)
        (.matched (.ifThen (condition.mapLiterals S.payload) (Statement.mapAllLiterals S.payload body)) d₄ hd₄ :
          Outcome Statement d.unread.length) := agree_matched hrel₄ rfl
    cases u with
    | keyword k =>
      cases k with
      | otherwise =>
        refine agree_expect hrel₄ (by rw [h₄]; nofun) nofun fun c₅ _ d₅ _ h₅ hrel₅ => ?_
        refine agree_bind (agree_block c₅ hrel₅ (by rw [h₅]; nofun)) fun alternative c₆ _ d₆ _ halt hrel₆ => ?_
        obtain ⟨-, -, -, h₆⟩ := block_sound c₅ h₅ halt
        exact agree_take hrel₆ (by rw [h₆]; nofun) fun _ _ _ _ _ _ hrel => agree_matched hrel rfl _ _
      | _ => exact hthen _ _
    | _ => exact hthen _ _
  | _ => exact agree_mismatched c₂ d₂
termination_by (c.unread.length, 0)

end

end Statements

/-! ## Functions -/

section Functions

theorem agree_parameters (c : Cursor) {d : Cursor} (h : S.related c d) :
    S.Agree id (parameters c) (parameters d) := by
  rw [parameters, parameters]
  refine agree_look h fun t ht => ?_
  cases t with
  | identifier name =>
    refine agree_expect h (by simp [ht]) (by simp) fun c₁ _ d₁ _ h₁ hrel₁ => ?_
    refine agree_expectName hrel₁ (by simp [h₁]) fun type c₂ _ d₂ _ h₂ hrel₂ => ?_
    refine agree_take hrel₂ (by simp [h₂]) fun u c₃ _ d₃ _ h₃ hrel₃ => ?_
    cases u with
    | comma =>
      refine agree_take hrel₃ (by simp [h₃]) fun _ c₄ _ d₄ _ _ hrel₄ => ?_
      exact agree_bind (agree_parameters c₄ hrel₄) fun _ _ _ _ _ _ hrel => agree_matched hrel rfl _ _
    | rightParen => exact agree_matched hrel₃ rfl _ _
    | _ => exact agree_mismatched c₃ d₃
  | _ => exact agree_mismatched c d
termination_by c.unread.length

theorem agree_signature {c d : Cursor} (h : S.related c d) (hc : c.current ≠ some .newLine) :
    S.Agree id (signature c) (signature d) := by
  refine agree_take h hc fun t e he e' he' _ hrel => ?_
  have hlisted : S.Agree id
      ((parameters e).bind fun ps g hg => (.matched ps g (Nat.lt_trans hg he) : Outcome _ c.unread.length))
      ((parameters e').bind fun ps g hg => (.matched ps g (Nat.lt_trans hg he') : Outcome _ d.unread.length)) :=
    agree_bind (agree_parameters e hrel) fun _ _ _ _ _ _ hrel => agree_matched hrel rfl _ _
  cases t with
  | rightParen => exact agree_matched hrel rfl he he'
  | _ => exact hlisted

theorem agree_function {c d : Cursor} (h : S.related c d) (hc : c.current ≠ some .newLine) :
    S.Agree (Function.mapLiterals S.payload) (function c) (function d) := by
  refine agree_expectName h hc fun name c₁ _ d₁ _ h₁ hrel₁ => ?_
  refine agree_expect hrel₁ (by rw [h₁]; nofun) nofun fun c₂ _ d₂ _ h₂ hrel₂ => ?_
  refine agree_bind (agree_signature hrel₂ (by rw [h₂]; nofun)) fun ps c₃ _ d₃ _ hps hrel₃ => ?_
  obtain ⟨-, -, -, h₃⟩ := signature_sound hps
  refine agree_expect hrel₃ (by rw [h₃]; nofun) nofun fun c₄ _ d₄ _ _ hrel₄ => ?_
  refine agree_takeOverNewLines hrel₄ fun t c₅ _ d₅ _ _ hrel₅ => ?_
  cases t with
  | identifier type =>
    refine agree_takeOverNewLines hrel₅ fun u c₆ _ d₆ _ h₆ hrel₆ => ?_
    cases u with
    | leftCurl =>
      exact agree_bind (agree_block c₆ hrel₆ (by rw [h₆]; nofun)) fun _ _ _ _ _ _ hrel => agree_matched hrel rfl _ _
    | _ => exact agree_mismatched c₆ d₆
  | _ => exact agree_mismatched c₅ d₅

end Functions

/-! ## Files -/

section Files

/-- The file loop goes over all the line breaks in front of the next entity. -/
theorem parsed_overNewLines (total : Nat) (current : Option Token) (ts : List Token) :
    ((overNewLines current ts).1 = false → parsed total ts = []) ∧
      ∀ e, overNewLines current ts = (true, e) → parsed total ts = parsed total e.ahead := by
  fun_induction overNewLines current ts with
  | case1 => exact ⟨fun _ => rfl, fun _ h => by cases h⟩
  | case2 _ ts ih =>
    rw [parsed_newLine]
    exact ih
  | case3 _ t ts hne =>
    refine ⟨fun h => (by cases h), fun e h => ?_⟩
    cases h
    rfl

/-- What is parsed behind a match of each of two productions in step. -/
theorem parsed_of_agree {f : α → α} {g : α → Entity} (rest rest' : Cursor → List Entity) {o : Outcome α m}
    {o' : Outcome α n} (h : S.Agree f o o') (hg : ∀ a, g (f a) = (g a).mapLiterals S.payload)
    (hrest : ∀ a c d, o.result? = some (a, c) → S.related c d → rest' d = (rest c).map (Entity.mapLiterals S.payload)) :
    o'.result?.elim [] (fun r => g r.1 :: rest' r.2) =
      (o.result?.elim [] fun r => g r.1 :: rest r.2).map (Entity.mapLiterals S.payload) := by
  rcases h with ⟨h, h'⟩ | ⟨a, c, d, h, h', hrel⟩
  · rw [h, h']
    rfl
  · rw [h, h']
    simp only [Option.elim_some, List.map_cons, hg, hrest a c d h hrel]

/-- **Two files in step**: from related cursors on, the same entities are parsed up to the literals. -/
theorem parsed_related (c : Cursor) {d : Cursor} (h : S.related c d) (hc : c.current.isSome) (j k : Nat) :
    parsed k d.ahead = (parsed j c.ahead).map (Entity.mapLiterals S.payload) := by
  obtain ⟨t, ht⟩ := Option.isSome_iff_exists.mp hc
  have ht' : d.current = some (t.mapLiteral S.payload) := by rw [S.current h, ht]; rfl
  by_cases hline : t = .newLine
  · subst hline
    rw [ahead_of_current ht, ahead_of_current ht', parsed_newLine]
    show parsed k (.newLine :: d.unread) = _
    rw [parsed_newLine]
    have hover := parsed_overNewLines j c.current c.unread
    have hover' := parsed_overNewLines k d.current d.unread
    rcases S.skip h with ⟨hend, hend'⟩ | ⟨e, e', hfound, hfound', hrel⟩
    · rw [hover.1 hend, hover'.1 hend']
      rfl
    · obtain ⟨-, u, -, hu, -⟩ := lineBreaks_of_overNewLines hfound
      have hlt := unread_length_of_skipNewLines hfound
      rw [hover.2 e hfound, hover'.2 e' hfound']
      exact parsed_related e hrel (by rw [hu]; rfl) j k
  have hnext : c.current ≠ some .newLine := fun hsame => hline (Option.some.inj (ht.symm.trans hsame))
  have hother : (∀ b, t ≠ .keyword (.binding b)) → t ≠ .keyword .function →
      parsed k d.ahead = (parsed j c.ahead).map (Entity.mapLiterals S.payload) := by
    intro hb hf
    have hsame : ∀ u, (∀ l, u ≠ .literal l) → t.mapLiteral S.payload = u → t = u :=
      fun u hu => (Token.mapLiteral_eq_iff hu).mp
    have hother' : parsed k (t.mapLiteral S.payload :: d.unread) = [] :=
      parsed_other (fun hu => hline (hsame .newLine nofun hu))
        (fun b hu => hb b (hsame (.keyword (.binding b)) nofun hu)) fun hu => hf (hsame (.keyword .function) nofun hu)
    rw [ahead_of_current ht, ahead_of_current ht', parsed_other hline hb hf, hother']
    rfl
  cases t with
  | keyword w =>
    cases w with
    | binding b =>
      rw [parsed_ahead ht, parsed_ahead ht', entities_declaration ht, entities_declaration ht']
      refine parsed_of_agree (fun r => (entities j r).entities.map Prod.fst) (fun r => (entities k r).entities.map Prod.fst)
        (g := .statement) (agree_declaration b h hnext) (fun _ => rfl) fun s e e' hs hrel => ?_
      obtain ⟨_, _, _, _, u, -, -, -, hu, -⟩ := declaration_sound ht hs
      have hu' : e'.current = some (u.mapLiteral S.payload) := by rw [S.current hrel, hu]; rfl
      have hlt := Outcome.unread_length_of_result? hs
      rw [← parsed_ahead hu, ← parsed_ahead hu']
      exact parsed_related e hrel (by rw [hu]; rfl) j k
    | function =>
      rw [parsed_ahead ht, parsed_ahead ht', entities_function ht, entities_function ht']
      refine parsed_of_agree (fun r => parsed j r.unread) (fun r => parsed k r.unread)
        (g := .function) (agree_function h hnext) (fun _ => rfl) fun f e e' hf hrel => ?_
      obtain ⟨-, -, -, he⟩ := function_sound ht hf
      have hlt := Outcome.unread_length_of_result? hf
      rcases S.advance hrel (by rw [he]; nofun) with ⟨hend, hend'⟩ | ⟨g, g', hstep, hstep', hrel⟩
      · rw [unread_of_advance_eq_none hend, unread_of_advance_eq_none hend']
        rfl
      · have hlt' := unread_length_of_advance hstep
        rw [unread_of_advance hstep, unread_of_advance hstep']
        exact parsed_related g hrel (current_of_advance hstep) j k
    | _ => exact hother nofun nofun
  | _ => exact hother nofun nofun
termination_by c.unread.length

end Files

/-! ## Other literals -/

/-- The cursor over the same tokens with each literal replaced. -/
def replaced (f : Literal → Literal) (c : Cursor) : Cursor :=
  ⟨c.current.map (Token.mapLiteral f), c.unread.map (Token.mapLiteral f)⟩

theorem overNewLines_replaced (f : Literal → Literal) (current : Option Token) (ts : List Token) :
    overNewLines (current.map (Token.mapLiteral f)) (ts.map (Token.mapLiteral f)) =
      ((overNewLines current ts).1, replaced f (overNewLines current ts).2) := by
  fun_induction overNewLines current ts with
  | case1 => rfl
  | case2 _ _ ih => exact ih
  | case3 _ t ts hne =>
    cases t with
    | newLine => exact absurd rfl hne
    | _ => rfl

/-- Parses of the same tokens go in step, whatever their literals. -/
def replacing (f : Literal → Literal) : Simulation where
  payload := f
  related c d := d = replaced f c
  current := by
    rintro c _ rfl
    rfl
  advance := by
    rintro ⟨_, _ | ⟨t, ts⟩⟩ _ rfl -
    · exact .inl ⟨rfl, rfl⟩
    · exact .inr ⟨_, _, rfl, rfl, rfl⟩
  skip := by
    rintro c _ rfl
    have hover : (replaced f c).skipNewLines = _ := overNewLines_replaced f c.current c.unread
    rw [hover]
    show (c.skipNewLines.1 = false ∧ c.skipNewLines.1 = false) ∨ _
    cases h : c.skipNewLines with
    | mk found e =>
      cases found with
      | false => exact .inl ⟨rfl, rfl⟩
      | true => exact .inr ⟨e, _, rfl, by rw [← skipNewLines, h], rfl⟩

/-- Tokens with other literals are parsed as the same entities with these literals. -/
theorem parsed_map (f : Literal → Literal) (m n : Nat) (ts : List Token) :
    parsed n (ts.map (Token.mapLiteral f)) = (parsed m ts).map (Entity.mapLiterals f) := by
  cases ts with
  | nil => rfl
  | cons t ts =>
    have hstep := (replacing f).parsed_related (on (t :: ts)) (d := on ((t :: ts).map (Token.mapLiteral f))) rfl rfl m n
    rwa [ahead_on, ahead_on] at hstep

end Simulation

end Parlance
