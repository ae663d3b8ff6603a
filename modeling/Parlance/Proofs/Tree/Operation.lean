import Parlance.Proofs.Grammar.Expression
import Parlance.Proofs.Token.Shape
import Parlance.Proofs.Tree.Image
import Parlance.Proofs.Tree.Layout

/-!
# Operators in texts

What becomes of an expression that is written with operators between its operands. Each operand stands in parentheses or is
no operation itself, so nothing but the priorities decides how the operators group them: the operation that is done last is
the rightmost one of the lowest priority, and the same holds again on both sides of it (`Groups`).

* `Expr.ofTokens?_iff`: tokens are parsed as the expression that they begin with;
* `Groups.spells`, `exists_groups`: operands can be grouped, and their tokens spell the expression so grouped;
* `Expr.ofText?_operation`: so every listed operator but one can be written and binds with its listed priority. The sign `!`
  is no operator symbol; it is dropped like every unknown character, so `!=` is read as `=`, and no text is parsed to an
  operation `!=`.
-/

namespace Parlance

open Grammar

/-! ## Parsing one expression -/

/-- Tokens are parsed as the expression that they begin with. -/
theorem Expr.ofTokens?_iff {ts : List Token} {e : Expr} :
    Expr.ofTokens? ts = some e ↔ ∃ w, Begins lowestPriority (significant ts) w e := by
  rw [Expr.ofTokens?, Option.map_eq_some_iff]
  constructor
  · rintro ⟨⟨e, d⟩, h, rfl⟩
    obtain ⟨t, c, _, hstep, -, h⟩ := Cursor.result?_take.mp h
    obtain ⟨_, _, _, he, h⟩ := Outcome.result?_bind.mp h
    cases h
    obtain ⟨w, u, hw, hs, hu, hstop⟩ := expression_sound lowestPriority c he
    refine ⟨w, u, d.unread, ?_, hs, hstop⟩
    rw [← Cursor.ahead_of_current hu, ← hw]
    exact Cursor.unread_of_advance hstep
  · rintro ⟨w, u, rest, hw, hs, hstop⟩
    have hparsed := expression_complete rest hs hstop
    obtain ⟨t, us, ht⟩ := List.exists_cons_of_ne_nil (show w ++ u :: rest ≠ [] by simp)
    rw [ht] at hw hparsed
    have hstep : (Cursor.before (significant ts)).advance = some ⟨some t, us⟩ := by
      rw [hw]
      rfl
    refine ⟨(e, .on (u :: rest)), ?_, rfl⟩
    refine Cursor.result?_take.mpr ⟨t, _, Cursor.unread_length_of_advance hstep, hstep, rfl, ?_⟩
    exact Outcome.result?_bind_of hparsed rfl

/-- Proper tokens that do not run together are parsed as the expression that they spell. -/
theorem Expr.ofText?_of_spells {ts : List Token} {e : Expr} (hproper : ∀ t ∈ ts, t.Proper) (hspaced : Spaced ts)
    (hs : Spells lowestPriority (significant ts) e) : Expr.ofText? (ts.flatMap Token.text) = some e := by
  rw [Expr.ofText?, lex_text hproper hspaced, Expr.ofTokens?_iff]
  refine ⟨significant ts, .endOfInput, [], ?_, hs, .endOfInput⟩
  exact List.filter_append ts [.endOfInput]

/-! ## Operands -/

/-- What is no operation is spelled above every floor. -/
theorem Grammar.Spells.atom {p : Nat} {w : List Token} {e : Expr} (h : Spells p w e) (hatom : ∀ o l r, e ≠ .binary o l r)
    (floor : Nat) : Spells floor w e := by
  cases h with
  | literal => exact .literal
  | identifier => exact .identifier
  | call has => exact .call has
  | parens he => exact .parens he
  | binary => exact absurd rfl (hatom _ _ _)

/-- An operand as it is written: in parentheses, or bare if it is no operation itself. -/
structure Operand where
  value : Expr
  enclosed : Bool
  wellFormed : value.WellFormed
  closed : value.Closed
  enclosed_of_binary : ∀ o l r, value = .binary o l r → enclosed = true

namespace Operand

def layout (a : Operand) : List Token :=
  if a.enclosed then .leftParen :: (a.value.layout ++ [.rightParen]) else a.value.layout

theorem proper_layout (a : Operand) : ∀ t ∈ a.layout, t.Proper := by
  have hvalue := a.value.proper_layout a.wellFormed
  unfold layout
  split
  · simp only [List.forall_mem_cons, List.forall_mem_append]
    exact ⟨trivial, hvalue, trivial, List.forall_mem_nil _⟩
  · exact hvalue

theorem spaced_layout (a : Operand) {rest : List Token} (h : Spaced rest)
    (hnext : rest.head?.all (fun u => !u.isWordlike) = true) : Spaced (a.layout ++ rest) := by
  unfold layout
  split
  · have hvalue := a.value.spaced_layout (.rightParen :: rest) a.closed ⟨rfl, h⟩ rfl
    rw [List.cons_append, List.append_assoc]
    exact ⟨rfl, hvalue⟩
  · exact a.value.spaced_layout rest a.closed h hnext

/-- No blank follows the blank in front of an operand. -/
theorem endsBefore_layout (a : Operand) (rest : List Token) : Token.blank.endsBefore (a.layout ++ rest).head? = true := by
  unfold layout
  split
  · rfl
  · exact a.value.endsBefore_layout rest

/-- An operand is spelled above every floor. -/
theorem spells_layout (a : Operand) (floor : Nat) : Spells floor (significant a.layout) a.value := by
  obtain ⟨e, enclosed, hwell, hclosed, hbinary⟩ := a
  have hvalue := e.spells_layout hwell
  unfold layout
  split
  · have htokens : significant (.leftParen :: (e.layout ++ [.rightParen])) =
        .leftParen :: (significant e.layout ++ [.rightParen]) := by
      simp [significant, Token.isTrivia]
    rw [htokens]
    exact .parens hvalue
  · rename_i hbare
    exact hvalue.atom (fun o l r h => hbare (hbinary o l r h)) floor

end Operand

/-! ## Operands and operators in turn -/

/-- An operator and its right operand. -/
structure Link where
  operator : String
  isOperator : IsOperator operator
  right : Operand

/-- An operand and what follows it, with blanks around the operators. -/
def chain (a : Operand) : List Link → List Token
  | [] => a.layout
  | x :: xs => a.layout ++ .blank :: .operator x.operator :: .blank :: chain x.right xs

theorem chain_append (a : Operand) (xs : List Link) (x : Link) (ys : List Link) :
    chain a (xs ++ x :: ys) = chain a xs ++ .blank :: .operator x.operator :: .blank :: chain x.right ys := by
  induction xs generalizing a with
  | nil => rfl
  | cons y xs ih => simp [chain, ih]

theorem proper_chain (a : Operand) (xs : List Link) : ∀ t ∈ chain a xs, t.Proper := by
  induction xs generalizing a with
  | nil => exact a.proper_layout
  | cons x xs ih =>
    simp only [chain, List.forall_mem_cons, List.forall_mem_append]
    exact ⟨a.proper_layout, trivial, x.isOperator, trivial, ih x.right⟩

theorem endsBefore_chain (a : Operand) (xs : List Link) : Token.blank.endsBefore (chain a xs).head? = true := by
  cases xs with
  | nil =>
    have h := a.endsBefore_layout []
    rwa [List.append_nil] at h
  | cons x xs => exact a.endsBefore_layout _

theorem spaced_chain (a : Operand) (xs : List Link) : Spaced (chain a xs) := by
  induction xs generalizing a with
  | nil =>
    have h : Spaced (a.layout ++ []) := a.spaced_layout trivial rfl
    rwa [List.append_nil] at h
  | cons x xs ih => exact a.spaced_layout ⟨rfl, rfl, endsBefore_chain x.right xs, ih x.right⟩ rfl

/-! ## Groups -/

/-- How operands are grouped by the operators between them: the operation that is done last is the rightmost one of the
lowest priority. -/
inductive Groups : (a : Operand) → (xs : List Link) → (e : Expr) → Prop
  | operand {a : Operand} : Groups a [] a.value
  | operation {a : Operand} {xs ys : List Link} {x : Link} {l r : Expr} : Groups a xs l → Groups x.right ys r →
      (∀ y ∈ xs, priority x.operator ≤ priority y.operator) → (∀ y ∈ ys, priority x.operator < priority y.operator) →
      Groups a (xs ++ x :: ys) (.binary x.operator l r)

theorem Groups.one (a : Operand) (x : Link) : Groups a [x] (.binary x.operator a.value x.right.value) := by
  have h : Groups a ([] ++ x :: []) (.binary x.operator a.value x.right.value) :=
    .operation .operand .operand (List.forall_mem_nil _) (List.forall_mem_nil _)
  exact h

/-- In links there is a last one of the lowest priority. -/
theorem exists_lowest : ∀ xs : List Link, xs ≠ [] → ∃ ys x zs, xs = ys ++ x :: zs ∧
    (∀ y ∈ ys, priority x.operator ≤ priority y.operator) ∧ ∀ z ∈ zs, priority x.operator < priority z.operator
  | [], h => absurd rfl h
  | [x], _ => ⟨[], x, [], rfl, List.forall_mem_nil _, List.forall_mem_nil _⟩
  | w :: v :: xs, _ => by
    obtain ⟨ys, x, zs, hsplit, hys, hzs⟩ := exists_lowest (v :: xs) (List.cons_ne_nil v xs)
    rw [hsplit]
    by_cases hw : priority x.operator ≤ priority w.operator
    · exact ⟨w :: ys, x, zs, rfl, List.forall_mem_cons.mpr ⟨hw, hys⟩, hzs⟩
    · -- the first one is lower than all the others
      refine ⟨[], w, ys ++ x :: zs, rfl, List.forall_mem_nil _, ?_⟩
      simp only [List.forall_mem_append, List.forall_mem_cons]
      refine ⟨fun y hy => ?_, by omega, fun z hz => ?_⟩
      · have := hys y hy
        omega
      · have := hzs z hz
        omega

theorem exists_groups (a : Operand) (xs : List Link) : ∃ e, Groups a xs e := by
  by_cases hne : xs = []
  · subst hne
    exact ⟨a.value, .operand⟩
  · obtain ⟨ys, x, zs, hsplit, hys, hzs⟩ := exists_lowest xs hne
    have hlength : xs.length = ys.length + (zs.length + 1) := by rw [hsplit, List.length_append, List.length_cons]
    obtain ⟨l, hl⟩ := exists_groups a ys
    obtain ⟨r, hr⟩ := exists_groups x.right zs
    rw [hsplit]
    exact ⟨.binary x.operator l r, .operation hl hr hys hzs⟩
termination_by xs.length

/-- The tokens spell the expression as it is grouped, above every floor that is below all operators. -/
theorem Groups.spells {a : Operand} {xs : List Link} {e : Expr} (h : Groups a xs e) :
    ∀ floor, (∀ x ∈ xs, floor < priority x.operator) → Spells floor (significant (chain a xs)) e := by
  induction h with
  | @operand a => exact fun floor _ => a.spells_layout floor
  | @operation a xs ys x l r _ _ hxs hys ihl ihr =>
    intro floor hfloor
    have htokens : significant (chain a (xs ++ x :: ys)) =
        significant (chain a xs) ++ .operator x.operator :: significant (chain x.right ys) := by
      simp [chain_append, significant, Token.isTrivia]
    have hpos := priority_pos x.operator
    rw [htokens]
    refine .binary (hfloor x (by simp)) (ihl _ fun y hy => ?_) (ihr _ hys)
    have := hxs y hy
    omega

/-- Operands and operators in turn are parsed as the expression that they are grouped to, and as no other. -/
theorem Expr.ofText?_chain {a : Operand} {xs : List Link} {e : Expr} :
    Expr.ofText? ((chain a xs).flatMap Token.text) = some e ↔ Groups a xs e := by
  have hparsed : ∀ e, Groups a xs e → Expr.ofText? ((chain a xs).flatMap Token.text) = some e := by
    intro e h
    exact Expr.ofText?_of_spells (proper_chain a xs) (spaced_chain a xs)
      (h.spells lowestPriority fun x _ => priority_pos x.operator)
  constructor
  · intro h
    obtain ⟨e', he'⟩ := exists_groups a xs
    obtain rfl : e = e' := Option.some.inj (h.symm.trans (hparsed e' he'))
    exact he'
  · exact hparsed e

/-! ## Listed operators -/

/-- An expression as a text. -/
def Expr.render (e : Expr) : List Char := e.layout.flatMap Token.text

/-- An operator between two expressions in parentheses, as a text. -/
def operation (l : Expr) (o : String) (r : Expr) : List Char :=
  '(' :: (l.render ++ ')' :: ' ' :: (o.toList ++ ' ' :: '(' :: (r.render ++ [')'])))

/-- Every listed operator but `!=` consists of operator symbols. -/
theorem isOperator_of_listed : ∀ entry ∈ listedPriorities, entry.1 ≠ "!=" → IsOperator entry.1 := by
  decide

/-- No operator is listed with two priorities. -/
theorem priority_of_listed : ∀ entry ∈ listedPriorities, priority entry.1 = entry.2 := by
  decide

section Operation

variable {l r : Expr} (hl : l.WellFormed) (hl' : l.Closed) (hr : r.WellFormed) (hr' : r.Closed)
include hl hl' hr hr'

theorem Expr.ofText?_operator {o : String} (ho : IsOperator o) : Expr.ofText? (operation l o r) = some (.binary o l r) := by
  let a : Operand := ⟨l, true, hl, hl', fun _ _ _ _ => rfl⟩
  let x : Link := ⟨o, ho, ⟨r, true, hr, hr', fun _ _ _ _ => rfl⟩⟩
  have htext : operation l o r = (chain a [x]).flatMap Token.text := by
    simp [operation, chain, a, x, Operand.layout, Expr.render, Token.text]
  rw [htext, Expr.ofText?_chain]
  exact .one a x

/-- The sign `!` is no operator symbol, so it is an unknown token in front of the operator. -/
theorem lex_notEqual :
    lex (operation l "!=" r) = .leftParen :: (l.layout ++ [.rightParen, .blank]) ++
      .unknown :: (.operator "=" :: .blank :: .leftParen :: (r.layout ++ [.rightParen]) ++ [.endOfInput]) := by
  let ts : List Token := .leftParen :: (l.layout ++ [.rightParen, .blank])
  let us : List Token := .operator "=" :: .blank :: .leftParen :: (r.layout ++ [.rightParen])
  have htext : operation l "!=" r = ts.flatMap Token.text ++ '!' :: us.flatMap Token.text := by
    simp [operation, ts, us, Expr.render, Token.text]
  have hproper : (∀ t ∈ ts, t.Proper) ∧ ∀ u ∈ us, u.Proper := by
    simp only [ts, us, List.forall_mem_cons, List.forall_mem_append]
    exact ⟨⟨trivial, l.proper_layout hl, trivial, trivial, List.forall_mem_nil _⟩, proper_assignment, trivial, trivial,
      r.proper_layout hr, trivial, List.forall_mem_nil _⟩
  have hspaced : Spaced (ts ++ [.unknown]) := by
    have h := l.spaced_layout [.rightParen, .blank, .unknown] hl' ⟨rfl, rfl, rfl, trivial⟩ rfl
    simp only [ts, List.cons_append, List.append_assoc, List.nil_append]
    exact ⟨rfl, h⟩
  have hspaced' : Spaced us := ⟨rfl, rfl, rfl, r.spaced_layout [.rightParen] hr' ⟨rfl, trivial⟩ rfl⟩
  have hend : endMark ∉ '!' :: us.flatMap Token.text :=
    List.not_mem_cons_of_ne_of_not_mem (by decide) (endMark_notMem_flatMap hproper.2)
  have hheads : Heads .unknown '!' := ⟨rfl, rfl, rfl, by simp⟩
  have hsign : lex ('!' :: us.flatMap Token.text) = .unknown :: lex (us.flatMap Token.text) := by
    rw [lex_munch hend]
    rfl
  rw [htext, lex_text_append hproper.1 hspaced hheads hend, hsign, lex_text hproper.2 hspaced']

theorem Expr.ofText?_notEqual : Expr.ofText? (operation l "!=" r) = some (.binary "=" l r) := by
  have hwell : (Expr.binary "=" l r).WellFormed := ⟨proper_assignment, hl, hr⟩
  rw [Expr.ofText?, lex_notEqual hl hl' hr hr', Expr.ofTokens?_iff]
  refine ⟨_, .endOfInput, [], ?_, Expr.spells_layout _ hwell, .endOfInput⟩
  simp [Expr.layout, significant, Token.isTrivia]

end Operation

/-- `!=` is listed, but `(a) != (b)` is not the operation of that name. -/
theorem Expr.ofText?_notEqual_lost : ("!=", 2) ∈ listedPriorities ∧ (Expr.identifier "a").WellFormed ∧
    (Expr.identifier "b").WellFormed ∧ operation (.identifier "a") "!=" (.identifier "b") = "(a) != (b)".toList ∧
    Expr.ofText? (operation (.identifier "a") "!=" (.identifier "b")) ≠
      some (.binary "!=" (.identifier "a") (.identifier "b")) := by
  have ha : (Expr.identifier "a").WellFormed := show IsName "a" by decide
  have hb : (Expr.identifier "b").WellFormed := show IsName "b" by decide
  refine ⟨by decide, ha, hb, by decide, ?_⟩
  rw [Expr.ofText?_notEqual ha trivial hb trivial]
  decide

/-- What a text without end marks is parsed to is well formed. -/
theorem Expr.wellFormed_ofText? {text : List Char} {e : Expr} (h : endMark ∉ text) (he : Expr.ofText? text = some e) :
    e.WellFormed := by
  obtain ⟨w, t, rest, hw, hs, -⟩ := Expr.ofTokens?_iff.mp he
  refine hs.wellFormed fun u hu => ?_
  have hmem : u ∈ significant (lex text) := hw ▸ List.mem_append_left _ hu
  exact proper_of_mem_lex h u (List.mem_filter.mp hmem).1

/-- **Listed operators in texts**. A listed operator between two expressions is read back if and only if it is not `!=`, and
it has its listed priority: longer expressions are parsed to what the priorities group them to. With `!=` between them, two
expressions are parsed to an operation `=`, and no text at all is parsed to an operation `!=`. -/
theorem Expr.ofText?_operation {o : String} {p : Nat} (hlisted : (o, p) ∈ listedPriorities) {l r : Expr}
    (hl : l.WellFormed) (hl' : l.Closed) (hr : r.WellFormed) (hr' : r.Closed) :
    (Expr.ofText? (operation l o r) = some (.binary o l r) ↔ o ≠ "!=") ∧
    (priority o = p ∧ ∀ a xs, (∃ e, Expr.ofText? ((chain a xs).flatMap Token.text) = some e) ∧
      ∀ e, Expr.ofText? ((chain a xs).flatMap Token.text) = some e ↔ Groups a xs e) ∧
    (o = "!=" → Expr.ofText? (operation l o r) = some (.binary "=" l r) ∧
      ∀ text, endMark ∉ text → ∀ l r, Expr.ofText? text ≠ some (.binary o l r)) := by
  have hlost := Expr.ofText?_notEqual hl hl' hr hr'
  refine ⟨⟨?_, fun hne => ?_⟩, ⟨priority_of_listed (o, p) hlisted, fun a xs => ⟨?_, fun e => Expr.ofText?_chain⟩⟩, ?_⟩
  · rintro h rfl
    rw [hlost] at h
    simp at h
  · exact Expr.ofText?_operator hl hl' hr hr' (isOperator_of_listed (o, p) hlisted hne)
  · obtain ⟨e, he⟩ := exists_groups a xs
    exact ⟨e, Expr.ofText?_chain.mpr he⟩
  · rintro rfl
    refine ⟨hlost, fun text h l r he => ?_⟩
    have hoperator : IsOperator "!=" := (Expr.wellFormed_ofText? h he).1
    revert hoperator
    decide

/-- A name as an operand. -/
def Operand.name (n : String) (h : IsName n) : Operand := ⟨.identifier n, false, h, trivial, by simp⟩

/-- A comparison with a sum, a chain of differences with a product in it, and `!=` between two names. -/
theorem Expr.ofText?_operation_sample :
    Expr.ofText? "(a) <= ((b) + (c))".toList =
      some (.binary "<=" (.identifier "a") (.binary "+" (.identifier "b") (.identifier "c"))) ∧
    Expr.ofText? "a - b - c * d".toList = some (.binary "-" (.binary "-" (.identifier "a") (.identifier "b"))
      (.binary "*" (.identifier "c") (.identifier "d"))) ∧
    Expr.ofText? "(a) != (b)".toList = some (.binary "=" (.identifier "a") (.identifier "b")) ∧
    ∀ l r, Expr.ofText? "(a) != (b)".toList ≠ some (.binary "!=" l r) := by
  have ha : IsName "a" := by decide
  have hb : IsName "b" := by decide
  have hc : IsName "c" := by decide
  have hd : IsName "d" := by decide
  have hplus : IsOperator "+" := by decide
  let minus (a : Operand) : Link := ⟨"-", by decide, a⟩
  let times (a : Operand) : Link := ⟨"*", by decide, a⟩
  have hgroups : Groups (.name "a" ha) ([minus (.name "b" hb)] ++ minus (.name "c" hc) :: [times (.name "d" hd)])
      (.binary "-" (.binary "-" (.identifier "a") (.identifier "b")) (.binary "*" (.identifier "c") (.identifier "d"))) :=
    .operation (.one _ _) (.one _ _) (List.forall_mem_singleton.mpr (Nat.le_refl _))
      (List.forall_mem_singleton.mpr (show priority "-" < priority "*" by decide))
  have hcomparison : "(a) <= ((b) + (c))".toList =
      operation (.identifier "a") "<=" (.binary "+" (.identifier "b") (.identifier "c")) := by decide
  have htokens : chain (.name "a" ha) [minus (.name "b" hb), minus (.name "c" hc), times (.name "d" hd)] =
      [.identifier "a", .blank, .operator "-", .blank, .identifier "b", .blank, .operator "-", .blank, .identifier "c",
        .blank, .operator "*", .blank, .identifier "d"] := rfl
  have hdifferences : "a - b - c * d".toList =
      (chain (.name "a" ha) [minus (.name "b" hb), minus (.name "c" hc), times (.name "d" hd)]).flatMap Token.text := by
    rw [htokens]
    decide
  have hnotEqual : "(a) != (b)".toList = operation (.identifier "a") "!=" (.identifier "b") := by decide
  obtain ⟨hsum, ⟨-, hchain⟩, -⟩ := Expr.ofText?_operation (show ("<=", 2) ∈ listedPriorities by decide)
    (show (Expr.identifier "a").WellFormed from ha) trivial
    (show (Expr.binary "+" (.identifier "b") (.identifier "c")).WellFormed from ⟨hplus, hb, hc⟩) ⟨trivial, trivial⟩
  obtain ⟨-, -, hlost⟩ := Expr.ofText?_operation (show ("!=", 2) ∈ listedPriorities by decide)
    (show (Expr.identifier "a").WellFormed from ha) trivial (show (Expr.identifier "b").WellFormed from hb) trivial
  rw [hcomparison, hdifferences, hnotEqual]
  exact ⟨hsum.mpr (by decide), ((hchain _ _).2 _).mpr hgroups, (hlost rfl).1, (hlost rfl).2 _ (by decide)⟩

end Parlance
