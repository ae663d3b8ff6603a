import Parlance.Grammar.File
import Parlance.Proofs.Grammar.File
import Parlance.Proofs.Grammar.Uniform

/-!
# Productions as plans

What a production does is open to inspection in its **plan**: the looks at the current token, the steps to the next one, and
the calls of other productions, each with the way on. A loop of the parser is a production that calls itself for the next
round.

The plans are those of the grammar (`answer_plan`): from every cursor, carrying out the plan of a production comes to the
same answer as the production itself.
-/

namespace Parlance

/-- What a production comes to. -/
inductive Answer (α : Type) where
  /-- A value, with the cursor where the production stopped. -/
  | found (value : α) (cursor : Cursor)
  /-- No value; the cursor is where the production gave up. -/
  | failed (cursor : Cursor)
  /-- The cursor was read before its first step. -/
  | unstarted

/-- Goes on after a value and after a failure. -/
def Answer.elim {α β : Type} (a : Answer α) (next : α → Cursor → Answer β) (otherwise : Cursor → Answer β) : Answer β :=
  match a with
  | found v c => next v c
  | failed c => otherwise c
  | unstarted => unstarted

theorem Answer.elim_found {α : Type} (a : Answer α) : a.elim found failed = a := by
  cases a <;> rfl

/-- Whether a token did not fit or was not there makes no difference to the caller of a production. -/
def Outcome.answer {α : Type} {n : Nat} : Outcome α n → Answer α
  | matched a c _ => .found a c
  | mismatched c | exhausted c => .failed c
  | unstarted => .unstarted

/-- An outcome on its own is gone on with by nothing. -/
theorem Outcome.answer_eq_of_elim {α : Type} {n : Nat} (o : Outcome α n) {a : Answer α}
    (h : o.answer.elim .found .failed = a) : o.answer = a :=
  o.answer.elim_found.symm.trans h

/-- A production that has started fails where it does not match. -/
theorem Outcome.Started.exists_failed {α : Type} {n : Nat} {o : Outcome α n} (h : o.Started)
    (hm : ∀ a d hd, o ≠ .matched a d hd) : ∃ d, o.answer = .failed d := by
  cases o with
  | matched a d hd => exact absurd rfl (hm a d hd)
  | mismatched d | exhausted d => exact ⟨d, rfl⟩
  | unstarted => exact h.elim

/-- One step, where there is a token for it. -/
def Cursor.stepped (c : Cursor) : Cursor := c.advance.getD c

theorem Cursor.unread_length_stepped (c : Cursor) : c.stepped.unread.length ≤ c.unread.length := by
  obtain ⟨current, _ | ⟨t, ts⟩⟩ := c
  · exact Nat.le_refl _
  · exact Nat.le_succ _

/-- A script comes to one answer from a cursor, whatever bound its outcome is given. -/
theorem Script.Runs.answer_eq {α : Type} {m n : Nat} {s : Script α} {c : Cursor} {o : Outcome α m}
    {o' : Outcome α n} (h : s.Runs c o) (h' : s.Runs c o') : o.answer = o'.answer := by
  induction s generalizing c with
  | done a =>
    obtain ⟨_, rfl⟩ := h
    obtain ⟨_, rfl⟩ := h'
    rfl
  | fail =>
    obtain rfl := h
    obtain rfl := h'
    rfl
  | look next ih =>
    obtain ⟨_ | t, ts⟩ := c
    · obtain rfl := h
      obtain rfl := h'
      rfl
    · exact ih t h h'
  | take next ih =>
    obtain ⟨current, _ | ⟨t, ts⟩⟩ := c
    · obtain rfl := h
      obtain rfl := h'
      rfl
    · exact ih t h h'

/-- Two steps in a row. -/
theorem Cursor.unread_length_trans {c d e : Cursor} (hd : d.unread.length < c.unread.length)
    (he : e.unread.length < d.unread.length) : e.unread.length < c.unread.length :=
  Nat.lt_trans he hd

namespace Grammar

/-! ## Productions -/

inductive Production where
  /-- A whole file, from a cursor in front of it. -/
  | file
  /-- A round of the file loop and those after it. -/
  | entities
  /-- One expression, from a cursor in front of it. -/
  | single
  | declaration
  | returns
  | conditional
  | statement
  | block
  /-- A round of the loop inside a block and those after it. -/
  | items
  | function
  | signature
  /-- A parameter and those after it. -/
  | parameters
  | expression (floor : Nat)
  /-- A round of the operator loop, behind a complete left operand, and those after it. -/
  | operators (floor : Nat) (left : Expr)
  | operand
  /-- An argument of a call and those after it. -/
  | arguments
  /-- The step to the next token that is no line break. -/
  | overNewLines

namespace Production

/-- What a production gives where it succeeds. -/
abbrev Value : Production → Type
  | file | entities => List Entity
  | declaration | returns | conditional | statement => Statement
  | block | items => Block
  | function => Function
  | signature | parameters => List Parameter
  | single | expression _ | operators _ _ | operand => Expr
  | arguments => List Expr
  | overNewLines => Token

end Production

/-! ## Plans -/

/-- What is still to be done for a value. -/
inductive Plan (α : Type) where
  | done (value : α)
  | fail
  /-- Looks at the current token. -/
  | look (next : Token → Plan α)
  /-- Takes the next token, if there is one. -/
  | step (next : Token → Plan α) (otherwise : Plan α)
  /-- Carries out a production, and goes on by its value or by its failure. -/
  | call (p : Production) (next : p.Value → Plan α) (otherwise : Plan α)

namespace Plan

variable {α : Type}

/-- Takes the next token; there has to be one. -/
def take (next : Token → Plan α) : Plan α := step next fail

/-- Takes the next token, which has to be `t`. -/
def expect (t : Token) (next : Plan α) : Plan α := take fun u => if u = t then next else fail

/-- Takes the next token, which has to be an identifier. -/
def expectName (next : String → Plan α) : Plan α :=
  take fun
    | .identifier name => next name
    | _ => fail

/-- Carries out a production, which has to succeed. -/
def run (p : Production) (next : p.Value → Plan α) : Plan α := call p next fail

end Plan

/-! ## What productions come to -/

/-- The file loop, with the cursor where it stops. -/
def fileLoop (c : Cursor) : Answer (List Entity) :=
  match c.current with
  | none => .unstarted
  | some .newLine =>
    match _h : c.advance with
    | none => .found [] c
    | some d => fileLoop d
  | some (.keyword (.binding b)) =>
    match declaration b c with
    | .matched s d _ => (fileLoop d).elim (fun es e => .found (.statement s :: es) e) .failed
    | o => o.answer.elim (fun _ d => .found [] d) fun d => .found [] d
  | some (.keyword .function) =>
    match function c with
    | .matched f d _ => (fileLoop d.stepped).elim (fun es e => .found (.function f :: es) e) .failed
    | o => o.answer.elim (fun _ d => .found [] d) fun d => .found [] d
  | some _ => .found [] c
termination_by c.unread.length
decreasing_by
  · exact Cursor.unread_length_of_advance ‹_›
  · assumption
  · have := d.unread_length_stepped; omega

/-- A declaration, from a cursor on either keyword. -/
def anyDeclaration (c : Cursor) : Outcome Statement c.unread.length :=
  c.look fun
    | .keyword (.binding b) => declaration b c
    | _ => .mismatched c

def returns (c : Cursor) : Outcome Statement c.unread.length :=
  c.take fun _ d hd =>
    (expression lowestPriority d).bind fun value e he => .matched (.returns value) e (Cursor.unread_length_trans hd he)

/-- One expression, from a cursor in front of it. -/
def single (c : Cursor) : Outcome Expr c.unread.length :=
  c.take fun _ d hd =>
    (expression lowestPriority d).bind fun value e he => .matched value e (Cursor.unread_length_trans hd he)

/-- The next token that is no line break. -/
def nextOverNewLines (c : Cursor) : Outcome Token c.unread.length := c.takeOverNewLines .matched

/-- What each production comes to. Behind a function there is one more step. -/
def answer : (p : Production) → Cursor → Answer p.Value
  | .file, c =>
    match c.advance with
    | none => .found [] c
    | some d => fileLoop d
  | .entities, c => fileLoop c
  | .single, c => (single c).answer
  | .declaration, c => (anyDeclaration c).answer
  | .returns, c => (returns c).answer
  | .conditional, c => (conditional c).answer
  | .statement, c => (statement c).answer
  | .block, c => (block c).answer
  | .items, c => (items c (Nat.lt_succ_self _)).answer
  | .function, c => (function c).answer.elim (fun f d => .found f d.stepped) .failed
  | .signature, c => (signature c).answer
  | .parameters, c => (parameters c).answer
  | .expression floor, c => (expression floor c).answer
  | .operators floor left, c => (operators floor left c (Nat.lt_succ_self _)).answer
  | .operand, c => (operand c).answer
  | .arguments, c => (arguments c).answer
  | .overNewLines, c => (nextOverNewLines c).answer

/-- What a plan comes to, from a cursor on. -/
def Plan.answer {α : Type} : Plan α → Cursor → Answer α
  | done a, c => .found a c
  | fail, c => .failed c
  | look next, c =>
    match c.current with
    | none => .unstarted
    | some t => (next t).answer c
  | step next otherwise, c =>
    match c.unread with
    | [] => otherwise.answer c
    | t :: ts => (next t).answer ⟨some t, ts⟩
  | call p next otherwise, c => (Grammar.answer p c).elim (fun v d => (next v).answer d) fun d => otherwise.answer d

theorem answer_function (c : Cursor) :
    answer .function c = (function c).answer.elim (fun f d => .found f d.stepped) .failed := rfl

theorem Plan.answer_look {α : Type} {next : Token → Plan α} {c : Cursor} {t : Token} (h : c.current = some t) :
    (Plan.look next).answer c = (next t).answer c := by
  obtain ⟨current, ts⟩ := c
  cases h
  rfl

theorem Plan.answer_call {α : Type} (p : Production) (next : p.Value → Plan α) (otherwise : Plan α) (c : Cursor) :
    (Plan.call p next otherwise).answer c =
      (Grammar.answer p c).elim (fun v d => (next v).answer d) fun d => otherwise.answer d := rfl

/-! ## Plans of the combinators -/

section Answers

variable {α β : Type} {m n : Nat} {c : Cursor} {post : α → Cursor → Answer β}

/-! What a production comes to may be gone on with by `post`; a production on its own goes on with nothing. -/

theorem answer_look {next : Token → Outcome α n} {k : Token → Plan β}
    (h : ∀ t, c.current = some t → (next t).answer.elim post .failed = (k t).answer c) :
    (c.look next).answer.elim post .failed = (Plan.look k).answer c := by
  obtain ⟨_ | t, ts⟩ := c
  · rfl
  · exact h t rfl

theorem answer_take {next : Token → (d : Cursor) → d.unread.length < c.unread.length → Outcome α n} {k : Token → Plan β}
    (h : ∀ t d hd, (next t d hd).answer.elim post .failed = (k t).answer d) :
    (c.take next).answer.elim post .failed = (Plan.take k).answer c := by
  obtain ⟨current, _ | ⟨t, ts⟩⟩ := c
  · rfl
  · exact h t _ _

theorem answer_expect {t : Token} {next : (d : Cursor) → d.unread.length < c.unread.length → Outcome α n} {k : Plan β}
    (h : ∀ d hd, (next d hd).answer.elim post .failed = k.answer d) :
    (c.expect t next).answer.elim post .failed = (Plan.expect t k).answer c := by
  refine answer_take fun u d hd => ?_
  split
  · exact h d hd
  · rfl

theorem answer_expectName {next : String → (d : Cursor) → d.unread.length < c.unread.length → Outcome α n}
    {k : String → Plan β} (h : ∀ name d hd, (next name d hd).answer.elim post .failed = (k name).answer d) :
    (c.expectName next).answer.elim post .failed = (Plan.expectName k).answer c := by
  refine answer_take fun u d hd => ?_
  cases u with
  | identifier name => exact h name d hd
  | _ => rfl

/-- A production that is called gives way to what follows it. -/
theorem answer_run {p : Production} {o : Outcome p.Value m} {next : p.Value → (d : Cursor) → d.unread.length < m → Outcome α n}
    {k : p.Value → Plan β} (ho : o.answer = answer p c)
    (h : ∀ a d hd, (next a d hd).answer.elim post .failed = (k a).answer d) :
    (o.bind next).answer.elim post .failed = (Plan.run p k).answer c := by
  rw [Plan.run, Plan.answer_call, ← ho]
  cases o with
  | matched a d hd => exact h a d hd
  | _ => rfl

/-- A production that is called last. -/
theorem answer_last {p : Production} {o : Outcome p.Value m} (ho : o.answer = answer p c) :
    o.answer.elim .found .failed = (Plan.run p .done).answer c := by
  rw [Plan.run, Plan.answer_call, ← ho]
  rfl

/-- Calling the production over line breaks is the same as stepping over them in place. -/
theorem answer_takeOverNewLines {next : Token → (d : Cursor) → d.unread.length < c.unread.length → Outcome α n}
    {k : Token → Plan β} (h : ∀ t d hd, (next t d hd).answer.elim post .failed = (k t).answer d) :
    (c.takeOverNewLines next).answer.elim post .failed = (Plan.run .overNewLines k).answer c := by
  have hbind : c.takeOverNewLines next = (nextOverNewLines c).bind next := by
    rw [nextOverNewLines]
    cases hskip : c.skipNewLines with
    | mk found d =>
      cases found with
      | false =>
        rw [Cursor.takeOverNewLines_of_none hskip, Cursor.takeOverNewLines_of_none hskip]
        rfl
      | true =>
        rw [Cursor.takeOverNewLines_of_found hskip, Cursor.takeOverNewLines_of_found hskip, Cursor.look, Cursor.look]
        cases d.current <;> rfl
  rw [hbind]
  exact answer_run (p := .overNewLines) rfl h

end Answers

/-! ## What productions are called with -/

/-- The bound that a loop is given makes no difference. -/
theorem answer_items {n : Nat} {c : Cursor} (h : c.unread.length < n) : (items c h).answer = answer .items c := by
  obtain ⟨s, hs⟩ := @uniform_items Bool (fun _ => c) (fun b => cond b n (c.unread.length + 1)) (c.unread.length + 1)
    (fun _ => Nat.lt_succ_self _) fun b => by cases b <;> simp [h]
  exact (hs true).answer_eq (hs false)

theorem answer_operators {n floor : Nat} {left : Expr} {c : Cursor} (h : c.unread.length < n) :
    (operators floor left c h).answer = answer (.operators floor left) c := by
  obtain ⟨s, hs⟩ := @uniform_operators Bool (fun _ => c) (fun b => cond b n (c.unread.length + 1)) floor left
    (c.unread.length + 1) (fun _ => Nat.lt_succ_self _) fun b => by cases b <;> simp [h]
  exact (hs true).answer_eq (hs false)

theorem answer_declaration {b : Binding} {c : Cursor} (h : c.current = some (.keyword (.binding b))) :
    answer .declaration c = (declaration b c).answer := by
  show (anyDeclaration c).answer = _
  rw [anyDeclaration, Cursor.look, h]

theorem answer_of_skipNewLines {found : Bool} {c d : Cursor} (h : c.skipNewLines = (found, d)) :
    answer .overNewLines c = if found then d.current.elim .unstarted (.found · d) else .failed d := by
  show (nextOverNewLines c).answer = _
  rw [nextOverNewLines]
  cases found with
  | false => rw [Cursor.takeOverNewLines_of_none h]; rfl
  | true =>
    rw [Cursor.takeOverNewLines_of_found h, Cursor.look]
    cases d.current <;> rfl

/-! ## The plan of each production -/

open Plan in
def plan : (p : Production) → Plan p.Value
  | .file => step (fun _ => run .entities done) (done [])
  | .entities =>
    look fun
      | .newLine => step (fun _ => run .entities done) (done [])
      | .keyword (.binding _) =>
        call .declaration (fun s => run .entities fun es => done (.statement s :: es)) (done [])
      | .keyword .function => call .function (fun f => run .entities fun es => done (.function f :: es)) (done [])
      | _ => done []
  | .single => take fun _ => run (.expression lowestPriority) done
  | .declaration =>
    look fun
      | .keyword (.binding b) =>
        expectName fun name =>
          expect .colon <| expectName fun type =>
            expect (.operator "=") <| take fun _ =>
              run (.expression lowestPriority) fun value => done (.declaration b name type value)
      | _ => fail
  | .returns => take fun _ => run (.expression lowestPriority) fun value => done (.returns value)
  | .conditional =>
    expect .leftParen <| run .operand fun condition =>
      look fun
        | .leftCurl =>
          run .block fun body =>
            take fun
              | .keyword .otherwise =>
                expect .leftCurl <| run .block fun alternative =>
                  take fun _ => done (.ifElse condition body alternative)
              | _ => done (.ifThen condition body)
        | _ => fail
  | .statement =>
    look fun
      | .keyword (.binding _) => run .declaration done
      | .keyword .returns => run .returns done
      | .keyword .condition => run .conditional done
      | _ => run (.expression lowestPriority) fun value => done (.expression value)
  | .block => take fun _ => run .items done
  | .items =>
    look fun
      | .rightCurl => done []
      | .newLine => take fun _ => run .items done
      | _ => run .statement fun first => run .items fun rest => done (first :: rest)
  | .function =>
    expectName fun name =>
      expect .leftParen <| run .signature fun ps =>
        expect .colon <| run .overNewLines fun
          | .identifier type =>
            run .overNewLines fun
              | .leftCurl =>
                -- at the end of the tokens the cursor stays on the closing brace
                run .block fun body => step (fun _ => done ⟨name, ps, type, body⟩) (done ⟨name, ps, type, body⟩)
              | _ => fail
          | _ => fail
  | .signature =>
    take fun
      | .rightParen => done []
      | _ => run .parameters done
  | .parameters =>
    look fun
      | .identifier name =>
        expect .colon <| expectName fun type =>
          take fun
            | .comma => take fun _ => run .parameters fun rest => done (⟨name, type⟩ :: rest)
            | .rightParen => done [⟨name, type⟩]
            | _ => fail
      | _ => fail
  | .expression floor => run .operand fun left => run (.operators floor left) done
  | .operators floor left =>
    look fun
      | .operator o =>
        if floor < priority o then
          take fun _ =>
            run (.expression (priority o)) fun right => run (.operators floor (.binary o left right)) done
        else done left
      | t => if t.endsExpression then done left else fail
  | .operand =>
    look fun
      | .literal l => take fun _ => done (.literal l)
      | .identifier name =>
        take fun
          | .leftParen => take fun _ => run .arguments fun as => done (.call name as)
          | .operator _ => done (.identifier name)
          | t => if t.endsExpression then done (.identifier name) else fail
      | .leftParen =>
        take fun _ =>
          run (.expression lowestPriority) fun inner =>
            look fun
              | .rightParen => take fun _ => done inner
              | _ => fail
      | _ => fail
  | .arguments =>
    run (.expression lowestPriority) fun first =>
      look fun
        | .comma => take fun _ => run .arguments fun rest => done (first :: rest)
        | .rightParen => take fun _ => done [first]
        | _ => fail
  | .overNewLines => take fun t => if t = .newLine then run .overNewLines done else done t

/-! ## The plans are those of the grammar -/

section Plans

variable (c : Cursor)

theorem plan_operators (floor : Nat) (left : Expr) :
    answer (.operators floor left) c = (plan (.operators floor left)).answer c := by
  refine (operators floor left c (Nat.lt_succ_self _)).answer_eq_of_elim ?_
  rw [operators]
  refine answer_look fun t _ => ?_
  cases t with
  | operator o =>
    dsimp only
    split
    · refine answer_take fun _ d hd => answer_run (p := .expression (priority o)) rfl fun right e he => ?_
      exact answer_last (p := .operators floor (.binary o left right)) (answer_operators _)
    · rfl
  | _ => rfl

theorem plan_operand : answer .operand c = (plan .operand).answer c := by
  refine (operand c).answer_eq_of_elim ?_
  rw [operand]
  refine answer_look fun t _ => ?_
  cases t with
  | literal l => exact answer_take fun _ _ _ => rfl
  | identifier name =>
    refine answer_take fun u d hd => ?_
    cases u with
    | leftParen => exact answer_take fun _ e _ => answer_run (p := .arguments) rfl fun _ _ _ => rfl
    | _ => rfl
  | leftParen =>
    refine answer_take fun _ d _ => answer_run (p := .expression lowestPriority) rfl fun inner e _ => ?_
    refine answer_look fun u _ => ?_
    cases u with
    | rightParen => exact answer_take fun _ _ _ => rfl
    | _ => rfl
  | _ => rfl

theorem plan_arguments : answer .arguments c = (plan .arguments).answer c := by
  refine (arguments c).answer_eq_of_elim ?_
  rw [arguments]
  refine answer_run (p := .expression lowestPriority) rfl fun first d _ => answer_look fun t _ => ?_
  cases t with
  | comma => exact answer_take fun _ e _ => answer_run (p := .arguments) rfl fun _ _ _ => rfl
  | rightParen => exact answer_take fun _ _ _ => rfl
  | _ => rfl

theorem plan_declaration : answer .declaration c = (plan .declaration).answer c := by
  refine (anyDeclaration c).answer_eq_of_elim ?_
  refine answer_look fun t _ => ?_
  cases t with
  | keyword k =>
    cases k with
    | binding b =>
      refine answer_expectName fun name _ _ => answer_expect fun _ _ => answer_expectName fun type _ _ => ?_
      refine answer_expect fun _ _ => answer_take fun _ _ _ => ?_
      exact answer_run (p := .expression lowestPriority) rfl fun _ _ _ => rfl
    | _ => rfl
  | _ => rfl

theorem plan_items : answer .items c = (plan .items).answer c := by
  refine (items c (Nat.lt_succ_self _)).answer_eq_of_elim ?_
  rw [items]
  refine answer_look fun t _ => ?_
  cases t with
  | rightCurl => rfl
  | newLine => exact answer_take fun _ d _ => answer_last (p := .items) (answer_items _)
  | _ =>
    refine answer_run (p := .statement) rfl fun first d _ => ?_
    exact answer_run (p := .items) (answer_items _) fun _ _ _ => rfl

theorem plan_statement : answer .statement c = (plan .statement).answer c := by
  refine (statement c).answer_eq_of_elim ?_
  rw [statement]
  refine answer_look fun t ht => ?_
  cases t with
  | keyword k =>
    cases k with
    | binding b => exact answer_last (p := .declaration) (answer_declaration ht).symm
    | returns => exact answer_last (p := .returns) rfl
    | condition => exact answer_last (p := .conditional) rfl
    | _ => exact answer_run (p := .expression lowestPriority) rfl fun _ _ _ => rfl
  | _ => exact answer_run (p := .expression lowestPriority) rfl fun _ _ _ => rfl

theorem plan_conditional : answer .conditional c = (plan .conditional).answer c := by
  refine (conditional c).answer_eq_of_elim ?_
  rw [conditional]
  refine answer_expect fun d _ => answer_run (p := .operand) rfl fun condition e _ => answer_look fun t _ => ?_
  cases t with
  | leftCurl =>
    refine answer_run (p := .block) rfl fun body f _ => answer_take fun u g _ => ?_
    cases u with
    | keyword k =>
      cases k with
      | otherwise =>
        refine answer_expect fun _ _ => answer_run (p := .block) rfl fun alternative _ _ => ?_
        exact answer_take fun _ _ _ => rfl
      | _ => rfl
    | _ => rfl
  | _ => rfl

theorem plan_parameters : answer .parameters c = (plan .parameters).answer c := by
  refine (parameters c).answer_eq_of_elim ?_
  rw [parameters]
  refine answer_look fun t _ => ?_
  cases t with
  | identifier name =>
    refine answer_expect fun _ _ => answer_expectName fun type _ _ => answer_take fun u _ _ => ?_
    cases u with
    | comma => exact answer_take fun _ _ _ => answer_run (p := .parameters) rfl fun _ _ _ => rfl
    | _ => rfl
  | _ => rfl

/-- At the end of the tokens the last step of a function leaves the cursor on the closing brace. -/
theorem plan_function : answer .function c = (plan .function).answer c := by
  rw [answer_function, function]
  refine answer_expectName fun name _ _ => answer_expect fun _ _ => answer_run (p := .signature) rfl fun ps _ _ => ?_
  refine answer_expect fun _ _ => answer_takeOverNewLines fun t _ _ => ?_
  cases t with
  | identifier type =>
    refine answer_takeOverNewLines fun u _ _ => ?_
    cases u with
    | leftCurl =>
      refine answer_run (p := .block) rfl fun body d _ => ?_
      obtain ⟨current, _ | ⟨t, ts⟩⟩ := d <;> rfl
    | _ => rfl
  | _ => rfl

theorem plan_overNewLines : answer .overNewLines c = (plan .overNewLines).answer c := by
  obtain ⟨current, _ | ⟨t, ts⟩⟩ := c
  · rfl
  by_cases ht : t = .newLine
  · subst ht
    -- what is skipped from the line break on is what is skipped behind it
    show _ = (Plan.run .overNewLines .done).answer ⟨some .newLine, ts⟩
    rw [← answer_last (p := .overNewLines) rfl, Answer.elim_found]
    cases hskip : (⟨some .newLine, ts⟩ : Cursor).skipNewLines with
    | mk found d =>
      have hskip' : (⟨current, .newLine :: ts⟩ : Cursor).skipNewLines = (found, d) := hskip
      rw [answer_of_skipNewLines hskip']
      exact (answer_of_skipNewLines hskip).symm
  · have hskip : (⟨current, t :: ts⟩ : Cursor).skipNewLines = (true, ⟨some t, ts⟩) :=
      Cursor.overNewLines_lineBreaks 0 current ts ht
    show _ = (if t = .newLine then Plan.run .overNewLines .done else .done t).answer ⟨some t, ts⟩
    rw [if_neg ht, answer_of_skipNewLines hskip]
    rfl

theorem plan_entities : answer .entities c = (plan .entities).answer c := by
  show fileLoop c = _
  obtain ⟨_ | t, ts⟩ := c
  · rw [fileLoop]
    rfl
  cases t with
  | newLine =>
    rw [fileLoop]
    cases ts with
    | nil => rfl
    | cons t ts =>
      show fileLoop ⟨some t, ts⟩ = (fileLoop ⟨some t, ts⟩).elim .found .failed
      cases fileLoop ⟨some t, ts⟩ <;> rfl
  | keyword k =>
    cases k with
    | binding b =>
      rw [fileLoop]
      show _ = (declaration b ⟨some (.keyword (.binding b)), ts⟩).answer.elim
        (fun s d => (fileLoop d).elim (fun es e => .found (.statement s :: es) e) .failed) (fun d => .found [] d)
      simp only
      cases declaration b ⟨some (.keyword (.binding b)), ts⟩ <;> rfl
    | function =>
      rw [fileLoop]
      show _ = ((function ⟨some (.keyword .function), ts⟩).answer.elim (fun f d => .found f d.stepped) .failed).elim
        (fun f d => (fileLoop d).elim (fun es e => .found (.function f :: es) e) .failed) (fun d => .found [] d)
      simp only
      cases function ⟨some (.keyword .function), ts⟩ <;> rfl
    | _ => rw [fileLoop]; rfl
  | _ => rw [fileLoop]; rfl

/-- **The plans are those of the grammar.** -/
theorem answer_plan (p : Production) : answer p c = (plan p).answer c := by
  cases p with
  | file =>
    obtain ⟨current, _ | ⟨t, ts⟩⟩ := c
    · rfl
    · show fileLoop ⟨some t, ts⟩ = (fileLoop ⟨some t, ts⟩).elim .found .failed
      rw [Answer.elim_found]
  | entities => exact plan_entities c
  | single =>
    refine (single c).answer_eq_of_elim ?_
    exact answer_take fun _ _ _ => answer_run (p := .expression lowestPriority) rfl fun _ _ _ => rfl
  | declaration => exact plan_declaration c
  | returns =>
    refine (returns c).answer_eq_of_elim ?_
    exact answer_take fun _ _ _ => answer_run (p := .expression lowestPriority) rfl fun _ _ _ => rfl
  | conditional => exact plan_conditional c
  | statement => exact plan_statement c
  | block =>
    refine (block c).answer_eq_of_elim ?_
    rw [block]
    exact answer_take fun _ _ hd => answer_last (p := .items) (answer_items hd)
  | items => exact plan_items c
  | function => exact plan_function c
  | signature =>
    refine (signature c).answer_eq_of_elim ?_
    rw [signature]
    refine answer_take fun t _ _ => ?_
    cases t with
    | rightParen => rfl
    | _ => exact answer_run (p := .parameters) rfl fun _ _ _ => rfl
  | parameters => exact plan_parameters c
  | expression floor =>
    refine (expression floor c).answer_eq_of_elim ?_
    rw [expression]
    refine answer_run (p := .operand) rfl fun left _ hd => ?_
    exact answer_last (p := .operators floor left) (answer_operators hd)
  | operators floor left => exact plan_operators c floor left
  | operand => exact plan_operand c
  | arguments => exact plan_arguments c
  | overNewLines => exact plan_overNewLines c

end Plans

end Grammar

end Parlance
