import Parlance.Grammar.Statement
import Parlance.Proofs.Grammar.Script

/-!
# Productions have scripts

Every production of the grammar is uniform in the cursor it starts from: what it does is decided by the tokens it looks at,
one after the other. The bound `N` on the unread tokens comes down with each token taken, and the scripts are found by
recursion on it.
-/

namespace Parlance.Grammar

open Behind

/-! ## Expressions -/

mutual

theorem uniform_expression {ι : Type} {cur : ι → Cursor} (floor : Nat) : ∀ N, (∀ i, (cur i).unread.length < N) →
    Uniform cur fun i => expression floor (cur i)
  | 0, hN => .empty hN
  | N + 1, hN => by
    unfold expression
    refine (uniform_operand (N + 1) hN).bind fun left => ?_
    exact uniform_operators floor left N (lt_of_lt_succ hN) progress
termination_by N => (N, 1)

theorem uniform_operators {ι : Type} {cur : ι → Cursor} {n : ι → Nat} (floor : Nat) (left : Expr) : ∀ N,
    (∀ i, (cur i).unread.length < N) → (hn : ∀ i, (cur i).unread.length < n i) →
    Uniform cur fun i => operators floor left (cur i) (hn i)
  | 0, hN, _ => .empty hN
  | N + 1, hN, hn => by
    have hN' := lt_of_lt_succ hN
    unfold operators
    refine .look fun t => ?_
    cases t with
    | operator o =>
      refine .ite (fun _ => .take fun _ => ?_) fun _ => .done hn
      refine (uniform_expression (priority o) N hN').bind fun right => ?_
      exact uniform_operators floor _ N (lt_of_lt hN') _
    | _ => exact .ite (fun _ => .done hn) fun _ => .fail
termination_by N => (N, 0)

theorem uniform_operand {ι : Type} {cur : ι → Cursor} : ∀ N, (∀ i, (cur i).unread.length < N) →
    Uniform cur fun i => operand (cur i)
  | 0, hN => .empty hN
  | N + 1, hN => by
    have hN' := lt_of_lt_succ hN
    unfold operand
    refine .look fun t => ?_
    cases t with
    | literal l => exact .take fun _ => .done progress
    | identifier name =>
      refine .take fun u => ?_
      cases u with
      | leftParen => exact .take fun _ => (uniform_arguments N (lt_of_lt hN')).bind fun _ => .done _
      | operator => exact .done progress
      | _ => exact .ite (fun _ => .done progress) fun _ => .fail
    | leftParen =>
      refine .take fun _ => (uniform_expression lowestPriority N hN').bind fun _ => .look fun u => ?_
      cases u with
      | rightParen => exact .take fun _ => .done _
      | _ => exact .fail
    | _ => exact .fail
termination_by N => (N, 0)

theorem uniform_arguments {ι : Type} {cur : ι → Cursor} : ∀ N, (∀ i, (cur i).unread.length < N) →
    Uniform cur fun i => arguments (cur i)
  | 0, hN => .empty hN
  | N + 1, hN => by
    unfold arguments
    refine (uniform_expression lowestPriority (N + 1) hN).bind fun _ => .look fun t => ?_
    cases t with
    | comma => exact .take fun _ => (uniform_arguments N (lt_of_lt (lt_of_lt_succ hN))).bind fun _ => .done _
    | rightParen => exact .take fun _ => .done _
    | _ => exact .fail
termination_by N => (N, 2)

end

/-! ## Statements -/

theorem uniform_declaration {ι : Type} {cur : ι → Cursor} (b : Binding) {N : Nat} (hN : ∀ i, (cur i).unread.length < N) :
    Uniform cur fun i => declaration b (cur i) := by
  unfold declaration
  refine .expectName fun name => .expect (.expectName fun type => .expect (.take fun _ => ?_))
  exact (uniform_expression lowestPriority N (lt_of_lt (lt_of_lt (lt_of_lt (lt_of_lt (lt_of_lt hN)))))).bind fun _ => .done _

mutual

theorem uniform_block {ι : Type} {cur : ι → Cursor} : ∀ N, (∀ i, (cur i).unread.length < N) →
    Uniform cur fun i => block (cur i)
  | 0, hN => .empty hN
  | N + 1, hN => by
    unfold block
    exact .take fun _ => uniform_items N (lt_of_lt_succ hN) progress
termination_by N => (N, 0)

theorem uniform_items {ι : Type} {cur : ι → Cursor} {n : ι → Nat} : ∀ N, (∀ i, (cur i).unread.length < N) →
    (hn : ∀ i, (cur i).unread.length < n i) → Uniform cur fun i => items (cur i) (hn i)
  | 0, hN, _ => .empty hN
  | N + 1, hN, hn => by
    unfold items
    refine .look fun t => ?_
    cases t with
    | rightCurl => exact .done hn
    | newLine => exact .take fun _ => uniform_items N (lt_of_lt_succ hN) _
    | _ =>
      refine (uniform_statement (N + 1) hN).bind fun first => ?_
      exact (uniform_items N (lt_of_lt_succ hN) _).bind fun _ => .done _
termination_by N => (N, 2)

theorem uniform_statement {ι : Type} {cur : ι → Cursor} : ∀ N, (∀ i, (cur i).unread.length < N) →
    Uniform cur fun i => statement (cur i)
  | 0, hN => .empty hN
  | N + 1, hN => by
    unfold statement
    refine .look fun t => ?_
    cases t with
    | keyword k =>
      cases k with
      | binding b => exact uniform_declaration b hN
      | returns =>
        exact .take fun _ => (uniform_expression lowestPriority N (lt_of_lt_succ hN)).bind fun _ => .done _
      | condition => exact uniform_conditional (N + 1) hN
      | _ => exact (uniform_expression lowestPriority (N + 1) hN).map
    | _ => exact (uniform_expression lowestPriority (N + 1) hN).map
termination_by N => (N, 1)

theorem uniform_conditional {ι : Type} {cur : ι → Cursor} : ∀ N, (∀ i, (cur i).unread.length < N) →
    Uniform cur fun i => conditional (cur i)
  | 0, hN => .empty hN
  | N + 1, hN => by
    have hN₁ := lt_of_lt_succ hN
    have hN₂ := lt_of_lt hN₁
    unfold conditional
    refine .expect ((uniform_operand N hN₁).bind fun condition => .look fun t => ?_)
    cases t with
    | leftCurl =>
      refine (uniform_block N hN₂).bind fun body => .take fun u => ?_
      cases u with
      | keyword k =>
        cases k with
        | otherwise =>
          refine .expect ((uniform_block N (lt_of_lt (lt_of_lt (lt_of_lt hN₂)))).bind fun alternative => ?_)
          exact .take fun _ => .done _
        | _ => exact .done _
      | _ => exact .done _
    | _ => exact .fail
termination_by N => (N, 0)

end

/-! ## Functions -/

theorem uniform_parameters {ι : Type} {cur : ι → Cursor} : ∀ N, (∀ i, (cur i).unread.length < N) →
    Uniform cur fun i => parameters (cur i)
  | 0, hN => .empty hN
  | N + 1, hN => by
    have hN₁ := lt_of_lt_succ hN
    unfold parameters
    refine .look fun t => ?_
    cases t with
    | identifier name =>
      refine .expect (.expectName fun type => .take fun u => ?_)
      cases u with
      | comma => exact .take fun _ => (uniform_parameters N (lt_of_lt (lt_of_lt (lt_of_lt hN₁)))).bind fun _ => .done _
      | rightParen => exact .done _
      | _ => exact .fail
    | _ => exact .fail
termination_by N => N

theorem uniform_signature {ι : Type} {cur : ι → Cursor} {N : Nat} (hN : ∀ i, (cur i).unread.length < N) :
    Uniform cur fun i => signature (cur i) := by
  unfold signature
  refine .take fun t => ?_
  cases t with
  | rightParen => exact .done progress
  | _ => exact (uniform_parameters N (lt_of_lt hN)).bind fun _ => .done _

theorem uniform_function {ι : Type} {cur : ι → Cursor} {N : Nat} (hN : ∀ i, (cur i).unread.length < N) :
    Uniform cur fun i => function (cur i) := by
  have hN₂ := lt_of_lt (lt_of_lt hN)
  have hN₄ := lt_of_lt (lt_of_lt hN₂)
  unfold function
  refine .expectName fun name => .expect ((uniform_signature hN₂).bind fun ps => .expect (.takeOverNewLines hN₄ fun t => ?_))
  cases t with
  | identifier type =>
    refine .takeOverNewLines (lt_of_lt hN₄) fun u => ?_
    cases u with
    | leftCurl => exact (uniform_block N (lt_of_lt (lt_of_lt hN₄))).bind fun _ => .done _
    | _ => exact .fail
  | _ => exact .fail

/-! ## Started cursors stay started -/

theorem started_expression (floor : Nat) (c : Cursor) (h : c.current.isSome) : (expression floor c).Started :=
  Uniform.started h fun N _ hN => uniform_expression floor N hN

theorem started_declaration (b : Binding) (c : Cursor) (h : c.current.isSome) : (declaration b c).Started :=
  Uniform.started h fun _ _ hN => uniform_declaration b hN

theorem started_function (c : Cursor) (h : c.current.isSome) : (function c).Started :=
  Uniform.started h fun _ _ hN => uniform_function hN

/-! ## What a production has asked for -/

/-- The tokens in front of a production's cursor have been asked for when it stops. -/
theorem le_asked_declaration (b : Binding) (c : Cursor) (h : c.current.isSome) (total : Nat) :
    total - c.unread.length ≤ (declaration b c).asked total :=
  (started_declaration b c h).le_asked (Uniform.left_le c fun _ _ hN => uniform_declaration b hN) total

theorem le_asked_function (c : Cursor) (h : c.current.isSome) (total : Nat) :
    total - c.unread.length ≤ (function c).asked total :=
  (started_function c h).le_asked (Uniform.left_le c fun _ _ hN => uniform_function hN) total

end Parlance.Grammar
