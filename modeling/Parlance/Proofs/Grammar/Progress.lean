import Parlance.Proofs.Grammar.Course
import Parlance.Proofs.Grammar.Nodes

/-!
# Parsing makes progress

Productions have levels, and a production that calls another one before it has taken a token calls one of a lower level
(`guarded_plan`, `shorter_or_below`). All other calls come with fewer tokens unread, since every production but the rounds
of a loop takes a token where it succeeds (`length_lt_of_found`). So no chain of calls goes on forever
(`wellFounded_starts`), the rounds of the loops included, and from a cursor with a current token every production comes to
an end (`answer_ne_unstarted`).
-/

namespace Parlance

/-- A match leaves fewer tokens than the production was given. -/
theorem Outcome.length_lt_of_answer {α : Type} {n : Nat} {o : Outcome α n} {v : α} {d : Cursor} (h : o.answer = .found v d) :
    d.unread.length < n := by
  cases o with
  | matched a c hc =>
    cases h
    exact hc
  | _ => cases h

namespace Grammar

/-! ## Levels -/

namespace Production

/-- The level of a production that may be called before a token is taken. -/
def level? : Production → Option Nat
  | entities | items => some 5
  | statement | arguments => some 4
  | declaration | returns | conditional | function => some 3
  | expression _ => some 2
  | operand => some 1
  | file | single | block | signature | parameters | operators _ _ | overNewLines => none

/-- The production is of a lower level. -/
def Below (q p : Production) : Prop := ∃ i j, q.level? = some i ∧ p.level? = some j ∧ i < j

/-- The productions that may succeed without taking a token: a file may be empty, and the last round of a loop may be. -/
def mayStay : Production → Bool
  | file | entities | items | operators _ _ => true
  | _ => false

theorem Below.mayStay_eq_false {p q : Production} (h : q.Below p) : q.mayStay = false := by
  obtain ⟨i, j, hi, hj, hlt⟩ := h
  cases q with
  | entities | items =>
    cases hi
    cases p <;> simp [level?] at hj <;> omega
  | file | operators => cases hi
  | _ => rfl

end Production

/-! ## Tokens taken -/

/-- A production other than the rounds of a loop takes a token where it succeeds. -/
theorem length_lt_of_found {p : Production} {c d : Cursor} {v : p.Value} (hp : p.mayStay = false)
    (h : answer p c = .found v d) : d.unread.length < c.unread.length := by
  cases p with
  | file | entities | items | operators => cases hp
  | function =>
    rw [answer_function] at h
    cases hf : function c with
    | matched f e he =>
      rw [hf] at h
      cases h
      exact Nat.lt_of_le_of_lt e.unread_length_stepped he
    | _ =>
      rw [hf] at h
      cases h
  | _ => exact Outcome.length_lt_of_answer h

/-- Those tokens are the ones that the cursor has moved over. -/
theorem takes_of_found {p : Production} {c d : Cursor} {v : p.Value} (hp : p.mayStay = false)
    (h : answer p c = .found v d) : ∃ w, w ≠ [] ∧ c.Takes w d := by
  have hlt := length_lt_of_found hp h
  obtain ⟨w, hw⟩ := takes_of_answer_eq_found h
  refine ⟨w, ?_, hw⟩
  rintro rfl
  rw [hw.eq_of_nil] at hlt
  exact Nat.lt_irrefl _ hlt

/-! ## Calls before the first token -/

/-- What the plan calls before it takes a token is below the production. -/
def Plan.Guarded {α : Type} (p : Production) : Plan α → Prop
  | done _ | fail => True
  | look next => ∀ t, (next t).Guarded p
  | step _ otherwise => otherwise.Guarded p
  | call q _ otherwise => q.Below p ∧ otherwise.Guarded p

theorem guarded_plan (p : Production) : (plan p).Guarded p := by
  cases p with
  | entities =>
    intro t
    cases t with
    | keyword k =>
      cases k with
      | binding => exact ⟨⟨3, 5, rfl, rfl, by omega⟩, trivial⟩
      | function => exact ⟨⟨3, 5, rfl, rfl, by omega⟩, trivial⟩
      | _ => trivial
    | _ => trivial
  | items =>
    intro t
    cases t with
    | rightCurl => trivial
    | newLine => trivial
    | _ => exact ⟨⟨4, 5, rfl, rfl, by omega⟩, trivial⟩
  | statement =>
    intro t
    cases t with
    | keyword k =>
      cases k with
      | binding => exact ⟨⟨3, 4, rfl, rfl, by omega⟩, trivial⟩
      | returns => exact ⟨⟨3, 4, rfl, rfl, by omega⟩, trivial⟩
      | condition => exact ⟨⟨3, 4, rfl, rfl, by omega⟩, trivial⟩
      | _ => exact ⟨⟨2, 4, rfl, rfl, by omega⟩, trivial⟩
    | _ => exact ⟨⟨2, 4, rfl, rfl, by omega⟩, trivial⟩
  | arguments => exact ⟨⟨2, 4, rfl, rfl, by omega⟩, trivial⟩
  | expression floor => exact ⟨⟨1, 2, rfl, rfl, by omega⟩, trivial⟩
  | declaration =>
    intro t
    cases t with
    | keyword k => cases k <;> trivial
    | _ => trivial
  | operators floor left =>
    intro t
    cases t with
    | operator o =>
      show Plan.Guarded _ (if floor < priority o then _ else _)
      split <;> trivial
    | _ => trivial
  | operand =>
    intro t
    cases t <;> trivial
  | parameters =>
    intro t
    cases t <;> trivial
  | _ => trivial

/-- What a guarded plan calls comes with fewer tokens unread, or it is below and the cursor has not moved. -/
theorem Plan.Guarded.shorter_or_below {α : Type} {p q : Production} {s : Plan α} {c d : Cursor} {next : q.Value → Plan α}
    {otherwise : Plan α} (hs : s.Guarded p) (h : s.Reaches c (.call q next otherwise) d) :
    d.unread.length < c.unread.length ∨ d = c ∧ q.Below p := by
  generalize hr : Plan.call q next otherwise = r at h
  induction h with
  | here =>
    subst hr
    exact .inr ⟨rfl, hs.1⟩
  | look _ _ ih => exact ih (hs _) hr
  | taken h _ =>
    obtain ⟨w, hw⟩ := h.takes
    exact .inl (Nat.lt_succ_of_le hw.length_le)
  | exhausted _ ih => exact ih hs hr
  | found ha h _ =>
    obtain ⟨w, hw⟩ := h.takes
    exact .inl (Nat.lt_of_le_of_lt hw.length_le (length_lt_of_found hs.1.mayStay_eq_false ha))
  | failed ha h ih =>
    obtain ⟨v, hv⟩ := takes_of_answer_eq_failed ha
    obtain ⟨w, hw⟩ := h.takes
    rcases hv.lt_or_eq with hlt | rfl
    · exact .inl (Nat.lt_of_le_of_lt hw.length_le hlt)
    · exact ih hs.2 hr

theorem shorter_or_below {p q : Production} {c d : Cursor} (h : Starts (p, c) (q, d)) :
    d.unread.length < c.unread.length ∨ d = c ∧ q.Below p := by
  obtain ⟨_, _, hreaches⟩ := h
  exact (guarded_plan p).shorter_or_below hreaches

/-! ## Ends -/

/-- Tokens unread, and behind those the level. -/
def measure (x : Production × Cursor) : Nat × Nat := (x.2.unread.length, x.1.level?.getD 0)

/-- **No chain of calls goes on forever.** -/
theorem wellFounded_starts : WellFounded fun y x => Starts x y := by
  refine Subrelation.wf (r := InvImage (Prod.Lex (· < ·) (· < ·)) measure) (fun {y x} h => ?_)
    (InvImage.wf measure (Prod.lex Nat.lt_wfRel Nat.lt_wfRel).wf)
  obtain ⟨p, c⟩ := x
  obtain ⟨q, d⟩ := y
  rcases shorter_or_below h with hlt | ⟨rfl, i, j, hi, hj, hlt⟩
  · exact .left _ _ hlt
  · show Prod.Lex _ _ (d.unread.length, q.level?.getD 0) (d.unread.length, p.level?.getD 0)
    rw [hi, hj]
    exact .right _ hlt

/-- From a cursor with a current token, every production succeeds or fails. -/
theorem answer_ne_unstarted (p : Production) (c : Cursor) (hc : c.current.isSome) : answer p c ≠ .unstarted := by
  induction hx : (p, c) using wellFounded_starts.induction generalizing p c with
  | _ x ih =>
    subst hx
    intro ha
    have hends := (plan p).endsIn_answer c
    rw [← answer_plan, ha] at hends
    obtain ⟨r, d, hreaches, hstuck⟩ := hends
    obtain ⟨w, hw⟩ := hreaches.takes
    have hd := hw.isSome hc
    cases hstuck with
    | look hnone =>
      rw [hnone] at hd
      cases hd
    | @call q next otherwise _ hq => exact ih (q, d) ⟨next, otherwise, hreaches⟩ q d hd rfl hq

/-- Where the tokens are used up behind a function, the cursor stays on its closing brace, and the file loop stops there. -/
theorem answer_function_exhausted {c d : Cursor} {f : Function} (hc : c.current = some (.keyword .function))
    (h : (function c).result? = some (f, d)) (hd : d.unread = []) :
    d.current = some .rightCurl ∧ answer .function c = .found f d ∧ answer .entities d = .found [] d := by
  obtain ⟨-, -, -, hbrace⟩ := function_sound hc h
  obtain ⟨current, unread⟩ := d
  cases hd
  cases hbrace
  refine ⟨rfl, ?_, ?_⟩
  · rw [answer_function]
    cases hf : function c with
    | matched g e he =>
      rw [hf] at h
      cases h
      rfl
    | _ =>
      rw [hf] at h
      cases h
  · rw [answer_plan]
    rfl

/-- **Progress.** What the productions do is what their plans say, and from a cursor with a current token each of them
succeeds or fails. One that succeeds has taken a token, the rounds of the loops apart; one that is called before its caller
has taken a token is of a lower level, so no chain of calls and rounds goes on forever, whatever the tokens are and whether
or not an end token is among them. The tree of a file or of an expression has no more nodes than tokens were taken. -/
theorem productions_progress :
    (∀ p c, answer p c = (plan p).answer c ∧ (c.current.isSome → answer p c ≠ .unstarted)) ∧
    (∀ (p : Production) c d v, p.mayStay = false → answer p c = .found v d → ∃ w, w ≠ [] ∧ c.Takes w d) ∧
    (∀ p q c d, Starts (p, c) (q, d) → d.unread.length < c.unread.length ∨ d = c ∧ q.Below p) ∧
    (WellFounded fun y x => Starts x y) ∧
    (∀ c d f, c.current = some (.keyword .function) → (function c).result? = some (f, d) → d.unread = [] →
      d.current = some .rightCurl ∧ answer .function c = .found f d ∧ answer .entities d = .found [] d) ∧
    (∀ tokens, (∃ d, answer .file (Cursor.before (significant tokens)) = .found (File.ofTokens tokens).entities d) ∧
      (File.ofTokens tokens).nodes ≤ taken (Reading.ofTokens tokens).asked tokens) ∧
    ∀ tokens e, Expr.ofTokens? tokens = some e →
      (∃ d, answer .single (Cursor.before (significant tokens)) = .found e d) ∧
      e.nodes ≤ taken ((Expr.outcome tokens).asked (significant tokens).length) tokens := by
  refine ⟨fun p c => ⟨answer_plan c p, answer_ne_unstarted p c⟩, fun p c d v => takes_of_found, fun p q c d => shorter_or_below,
    wellFounded_starts, fun c d f => answer_function_exhausted, fun tokens => ⟨answer_file tokens, nodes_ofTokens_le tokens⟩,
    fun tokens e he => ⟨?_, nodes_ofTokens?_le he⟩⟩
  obtain ⟨⟨e, d⟩, hr, rfl⟩ := Option.map_eq_some_iff.mp he
  refine ⟨d, ?_⟩
  rw [answer_single]
  cases ho : Expr.outcome tokens with
  | matched e' d' h =>
    rw [ho] at hr
    cases hr
    rfl
  | _ =>
    rw [ho] at hr
    cases hr

/-- A literal at the end of a line, as an expression and as its operand; and a function at the end of the tokens. -/
theorem productions_progress_samples :
    (∃ w, w ≠ [] ∧ Cursor.Takes ⟨some (.literal .badChar), [.newLine]⟩ w ⟨some .newLine, []⟩) ∧
    Production.operand.Below (.expression lowestPriority) ∧
    answer .entities ⟨some .rightCurl, []⟩ = .found [] ⟨some .rightCurl, []⟩ ∧
    (Expr.ofTokens? [.blank, .literal .badChar, .newLine] = some (.literal .badChar) ∧
      (Expr.literal .badChar).nodes ≤
        taken ((Expr.outcome [.blank, .literal .badChar, .newLine]).asked 2) [.blank, .literal .badChar, .newLine]) ∧
    answer .operand ⟨some .newLine, []⟩ ≠ .unstarted := by
  obtain ⟨hplan, htakes, hbelow, -, hfunction, -, hnodes⟩ := productions_progress
  refine ⟨?_, ?_, ?_, ?_, (hplan .operand ⟨some .newLine, []⟩).2 rfl⟩
  · have hfound : answer .operand ⟨some (.literal .badChar), [.newLine]⟩ =
        .found (.literal .badChar) ⟨some .newLine, []⟩ := by
      show (operand _).answer = _
      rw [operand]
      rfl
    exact htakes .operand _ _ _ rfl hfound
  · have hstarts : Starts (.expression lowestPriority, ⟨some .newLine, []⟩) (.operand, ⟨some .newLine, []⟩) :=
      ⟨_, _, .here⟩
    exact ((hbelow _ _ _ _ hstarts).resolve_left (Nat.lt_irrefl _)).2
  · have hspells : SpellsFunction [.keyword .function, .identifier "f", .leftParen, .rightParen, .colon, .identifier "A",
        .leftCurl, .rightCurl] ⟨"f", [], "A", []⟩ := .intro 0 0 .empty (.braces .nil)
    exact (hfunction _ _ _ rfl (hspells.function []) rfl).2.2
  · have hexpr : Expr.ofTokens? [.blank, .literal .badChar, .newLine] = some (.literal .badChar) := by
      have hresult := expression_complete [] (.literal : Spells lowestPriority [.literal .badChar] _) .newLine
      have houtcome : (Expr.outcome [.blank, .literal .badChar, .newLine]).result? =
          some (.literal .badChar, .on [.newLine]) :=
        Cursor.result?_take.mpr ⟨_, _, Nat.lt_succ_self _, rfl, rfl, Outcome.result?_bind_of hresult rfl⟩
      exact congrArg (Option.map Prod.fst) houtcome
    exact ⟨hexpr, (hnodes _ _ hexpr).2⟩

end Grammar

end Parlance
