import Parlance.Proofs.Grammar.Plan

/-!
# The course of a plan

A plan is followed through its looks, steps and calls, one after the other (`Plan.Reaches`); that is how it comes to what it
comes to (`Plan.endsIn_answer`). On its way the cursor only takes tokens: wherever it gets, it stands on the last of them
(`Cursor.Takes`, `Plan.Reaches.takes`), and so it does where any production stops (`answer_from`).

`Starts` tells which productions a production calls, and at which cursor. A whole parse is a production too, from the cursor
in front of the tokens: every list of tokens is a file (`answer_file`), and some begin with an expression (`answer_single`).
-/

namespace Parlance

/-! ## Taking tokens -/

/-- The cursor `d` stands behind the tokens `w`, taken from `c`. -/
structure Cursor.Takes (c : Cursor) (w : List Token) (d : Cursor) : Prop where
  unread : c.unread = w ++ d.unread
  /-- The last token taken is the current one. -/
  current : d.current = w.getLast?.or c.current

namespace Cursor.Takes

variable {c d e : Cursor} {v w : List Token}

theorem none (c : Cursor) : c.Takes [] c := ⟨rfl, rfl⟩

theorem eq_of_nil (h : c.Takes [] d) : d = c := by
  obtain ⟨current, unread⟩ := c
  obtain ⟨current', unread'⟩ := d
  have hunread := h.unread
  have hcurrent := h.current
  simp only [List.nil_append, List.getLast?_nil, Option.none_or] at hunread hcurrent
  rw [hunread, hcurrent]

theorem cons {current : Option Token} {t : Token} {ts : List Token} (h : Cursor.Takes ⟨some t, ts⟩ w d) :
    Cursor.Takes ⟨current, t :: ts⟩ (t :: w) d := by
  constructor
  · have hunread := h.unread
    simp only at hunread
    rw [hunread, List.cons_append]
  · rw [h.current]
    cases hw : w.getLast? <;> simp [List.getLast?_cons, hw]

theorem trans (h : c.Takes v d) (h' : d.Takes w e) : c.Takes (v ++ w) e := by
  constructor
  · rw [h.unread, h'.unread, List.append_assoc]
  · rw [h'.current, h.current, List.getLast?_append, Option.or_assoc]

theorem stepped (c : Cursor) : ∃ w, c.Takes w c.stepped := by
  obtain ⟨current, _ | ⟨t, ts⟩⟩ := c
  · exact ⟨[], none _⟩
  · exact ⟨[t], (none _).cons⟩

/-- There is a current token from the first one on. -/
theorem isSome (h : c.Takes w d) (hc : c.current.isSome) : d.current.isSome := by
  rw [h.current]
  cases hw : w.getLast? <;> simp [hc]

theorem length_le (h : c.Takes w d) : d.unread.length ≤ c.unread.length := by
  rw [h.unread, List.length_append]
  exact Nat.le_add_left _ _

/-- Where no fewer tokens are unread, the cursor has not moved. -/
theorem lt_or_eq (h : c.Takes w d) : d.unread.length < c.unread.length ∨ d = c := by
  cases w with
  | nil => exact .inr h.eq_of_nil
  | cons t w =>
    refine .inl ?_
    rw [h.unread, List.length_append, List.length_cons]
    omega

end Cursor.Takes

/-- Wherever a production stops, it has taken tokens from the cursor `c`. -/
def Answer.From {α : Type} (c : Cursor) : Answer α → Prop
  | found _ d | failed d => ∃ w, c.Takes w d
  | unstarted => True

namespace Answer.From

variable {α β : Type} {c d : Cursor} {w : List Token}

theorem found (v : α) (c : Cursor) : (Answer.found v c).From c := ⟨[], .none c⟩

theorem failed (c : Cursor) : (Answer.failed c : Answer α).From c := ⟨[], .none c⟩

theorem trans {a : Answer α} (h : c.Takes w d) (ha : a.From d) : a.From c := by
  cases a with
  | unstarted => trivial
  | _ =>
    obtain ⟨v, hv⟩ := ha
    exact ⟨w ++ v, h.trans hv⟩

theorem elim {a : Answer α} {next : α → Cursor → Answer β} {otherwise : Cursor → Answer β} (ha : a.From c)
    (hnext : ∀ v d, (next v d).From d) (hotherwise : ∀ d, (otherwise d).From d) : (a.elim next otherwise).From c := by
  cases a with
  | found v d =>
    obtain ⟨w, hw⟩ := ha
    exact (hnext v d).trans hw
  | failed d =>
    obtain ⟨w, hw⟩ := ha
    exact (hotherwise d).trans hw
  | unstarted => trivial

end Answer.From

/-- A script takes tokens and nothing else. -/
theorem Script.Runs.from {α : Type} {n : Nat} {s : Script α} {c : Cursor} {o : Outcome α n} (h : s.Runs c o) :
    o.answer.From c := by
  induction s generalizing c with
  | done a =>
    obtain ⟨_, rfl⟩ := h
    exact ⟨[], .none c⟩
  | fail =>
    obtain rfl := h
    exact ⟨[], .none c⟩
  | look next ih =>
    obtain ⟨_ | t, ts⟩ := c
    · obtain rfl := h
      trivial
    · exact ih t h
  | take next ih =>
    obtain ⟨current, _ | ⟨t, ts⟩⟩ := c
    · obtain rfl := h
      exact ⟨[], .none _⟩
    · have hrest : o.answer.From ⟨some t, ts⟩ := ih t h
      exact hrest.trans (Cursor.Takes.none _).cons

theorem Uniform.from {α : Type} {n : Cursor → Nat} {f : (c : Cursor) → Outcome α (n c)} (c : Cursor)
    (h : ∀ (N : Nat) (cur : Unit → Cursor), (∀ i, (cur i).unread.length < N) → Uniform cur fun i => f (cur i)) :
    (f c).answer.From c := by
  obtain ⟨s, hs⟩ := h (c.unread.length + 1) (fun _ => c) fun _ => Nat.lt_succ_self _
  exact (hs ()).from

namespace Grammar

theorem from_declaration (b : Binding) (c : Cursor) : (declaration b c).answer.From c :=
  Uniform.from c fun _ _ hN => uniform_declaration b hN

theorem from_function (c : Cursor) : (function c).answer.From c :=
  Uniform.from c fun _ _ hN => uniform_function hN

theorem from_fileLoop (c : Cursor) : (fileLoop c).From c := by
  fun_induction fileLoop c with
  | case1 c hc => trivial
  | case2 c hc hend => exact .found [] c
  | case3 c hc d hd ih =>
    obtain ⟨current, _ | ⟨t, ts⟩⟩ := c
    · cases hd
    · cases hd
      exact ih.trans (Cursor.Takes.none _).cons
  | case4 c b hc s d hlt hm ih =>
    have hfrom := from_declaration b c
    rw [hm] at hfrom
    obtain ⟨w, hw⟩ := hfrom
    exact (ih.elim (fun es e => .found (.statement s :: es) e) .failed).trans hw
  | case5 c b hc hm => exact (from_declaration b c).elim (fun _ d => .found [] d) (.found [])
  | case6 c hc f d hlt hm ih =>
    have hfrom := from_function c
    rw [hm] at hfrom
    obtain ⟨v, hv⟩ := hfrom
    obtain ⟨w, hw⟩ := Cursor.Takes.stepped d
    exact (ih.elim (fun es e => .found (.function f :: es) e) .failed).trans (hv.trans hw)
  | case7 c hc hm => exact (from_function c).elim (fun _ d => .found [] d) (.found [])
  | case8 c t hn hb hf hc => exact .found [] c

theorem from_single (c : Cursor) : (single c).answer.From c :=
  Uniform.from c fun N _ hN => .take fun _ => (uniform_expression lowestPriority N (Behind.lt_of_lt hN)).bind fun _ => .done _

theorem from_returns (c : Cursor) : (returns c).answer.From c :=
  Uniform.from c fun N _ hN => .take fun _ => (uniform_expression lowestPriority N (Behind.lt_of_lt hN)).bind fun _ => .done _

theorem from_anyDeclaration (c : Cursor) : (anyDeclaration c).answer.From c := by
  refine Uniform.from c fun _ _ hN => .look fun t => ?_
  cases t with
  | keyword k =>
    cases k with
    | binding b => exact uniform_declaration b hN
    | _ => exact .fail
  | _ => exact .fail

/-- Every production stops behind the tokens that it took. -/
theorem answer_from (c : Cursor) : ∀ p : Production, (answer p c).From c
  | .file => by
    obtain ⟨current, _ | ⟨t, ts⟩⟩ := c
    · exact .found [] _
    · exact (from_fileLoop ⟨some t, ts⟩).trans (Cursor.Takes.none _).cons
  | .entities => from_fileLoop c
  | .single => from_single c
  | .declaration => from_anyDeclaration c
  | .returns => from_returns c
  | .conditional => Uniform.from c fun N _ hN => uniform_conditional N hN
  | .statement => Uniform.from c fun N _ hN => uniform_statement N hN
  | .block => Uniform.from c fun N _ hN => uniform_block N hN
  | .items => Uniform.from (f := fun c => items c (Nat.lt_succ_self _)) c fun N _ hN => uniform_items N hN _
  | .function => (from_function c).elim (fun _ d => Cursor.Takes.stepped d) .failed
  | .signature => Uniform.from c fun _ _ hN => uniform_signature hN
  | .parameters => Uniform.from c fun N _ hN => uniform_parameters N hN
  | .expression floor => Uniform.from c fun N _ hN => uniform_expression floor N hN
  | .operators floor left =>
    Uniform.from (f := fun c => operators floor left c (Nat.lt_succ_self _)) c fun N _ hN => uniform_operators floor left N hN _
  | .operand => Uniform.from c fun N _ hN => uniform_operand N hN
  | .arguments => Uniform.from c fun N _ hN => uniform_arguments N hN
  | .overNewLines => Uniform.from (f := nextOverNewLines) c fun _ _ hN => .takeOverNewLines hN fun _ => .done _

theorem takes_of_answer_eq_found {p : Production} {c d : Cursor} {v : p.Value} (h : answer p c = .found v d) :
    ∃ w, c.Takes w d := by
  have hfrom := answer_from c p
  rwa [h] at hfrom

theorem takes_of_answer_eq_failed {p : Production} {c d : Cursor} (h : answer p c = .failed d) : ∃ w, c.Takes w d := by
  have hfrom := answer_from c p
  rwa [h] at hfrom

/-! ## Following a plan -/

/-- From the plan `s` at the cursor `c` one comes to what is left of it at a later cursor. -/
inductive Plan.Reaches {α : Type} : (s : Plan α) → (c : Cursor) → (r : Plan α) → (d : Cursor) → Prop
  | here {s : Plan α} {c : Cursor} : Reaches s c s c
  | look {next : Token → Plan α} {c : Cursor} {t : Token} {r : Plan α} {d : Cursor} : c.current = some t →
      Reaches (next t) c r d → Reaches (.look next) c r d
  | taken {next : Token → Plan α} {otherwise : Plan α} {current : Option Token} {t : Token} {ts : List Token} {r : Plan α}
      {d : Cursor} : Reaches (next t) ⟨some t, ts⟩ r d → Reaches (.step next otherwise) ⟨current, t :: ts⟩ r d
  /-- With no token left the cursor stays where it is. -/
  | exhausted {next : Token → Plan α} {otherwise : Plan α} {current : Option Token} {r : Plan α} {d : Cursor} :
      Reaches otherwise ⟨current, []⟩ r d → Reaches (.step next otherwise) ⟨current, []⟩ r d
  | found {p : Production} {next : p.Value → Plan α} {otherwise : Plan α} {c e : Cursor} {v : p.Value} {r : Plan α}
      {d : Cursor} : Grammar.answer p c = .found v e → Reaches (next v) e r d → Reaches (.call p next otherwise) c r d
  | failed {p : Production} {next : p.Value → Plan α} {otherwise : Plan α} {c e : Cursor} {r : Plan α} {d : Cursor} :
      Grammar.answer p c = .failed e → Reaches otherwise e r d → Reaches (.call p next otherwise) c r d

namespace Plan

variable {α : Type} {s r : Plan α} {c d : Cursor}

/-- Wherever one comes to, the cursor stands behind the tokens taken. -/
theorem Reaches.takes (h : s.Reaches c r d) : ∃ w, c.Takes w d := by
  induction h with
  | here => exact ⟨[], .none _⟩
  | look _ _ ih => exact ih
  | taken _ ih =>
    obtain ⟨w, hw⟩ := ih
    exact ⟨_, hw.cons⟩
  | exhausted _ ih => exact ih
  | found ha _ ih =>
    obtain ⟨v, hv⟩ := takes_of_answer_eq_found ha
    obtain ⟨w, hw⟩ := ih
    exact ⟨v ++ w, hv.trans hw⟩
  | failed ha _ ih =>
    obtain ⟨v, hv⟩ := takes_of_answer_eq_failed ha
    obtain ⟨w, hw⟩ := ih
    exact ⟨v ++ w, hv.trans hw⟩

/-- There is no way on: the current token is looked at where there is none, or the production called does so. -/
inductive Stuck : Plan α → Cursor → Prop
  | look {next : Token → Plan α} {c : Cursor} : c.current = none → Stuck (.look next) c
  | call {p : Production} {next : p.Value → Plan α} {otherwise : Plan α} {c : Cursor} :
      Grammar.answer p c = .unstarted → Stuck (.call p next otherwise) c

/-- Where one comes to in the end. -/
def EndsIn (s : Plan α) (c : Cursor) : Answer α → Prop
  | .found v d => s.Reaches c (.done v) d
  | .failed d => s.Reaches c .fail d
  | .unstarted => ∃ r d, s.Reaches c r d ∧ r.Stuck d

theorem EndsIn.imp {s' : Plan α} {c' : Cursor} {a : Answer α} (ha : s'.EndsIn c' a)
    (h : ∀ r d, s'.Reaches c' r d → s.Reaches c r d) : s.EndsIn c a := by
  cases a with
  | found v d => exact h _ _ ha
  | failed d => exact h _ _ ha
  | unstarted =>
    obtain ⟨r, d, hr, hd⟩ := ha
    exact ⟨r, d, h r d hr, hd⟩

/-- A plan comes to its answer by being followed to its end. -/
theorem endsIn_answer (s : Plan α) (c : Cursor) : s.EndsIn c (s.answer c) := by
  induction s generalizing c with
  | done v => exact .here
  | fail => exact .here
  | look next ih =>
    obtain ⟨_ | t, ts⟩ := c
    · exact ⟨_, _, .here, .look rfl⟩
    · exact (ih t _).imp fun _ _ h => .look rfl h
  | step next otherwise ih iho =>
    obtain ⟨current, _ | ⟨t, ts⟩⟩ := c
    · exact (iho _).imp fun _ _ h => .exhausted h
    · exact (ih t _).imp fun _ _ h => .taken h
  | call p next otherwise ih iho =>
    rw [answer_call]
    cases ha : Grammar.answer p c with
    | found v d => exact (ih v d).imp fun _ _ h => .found ha h
    | failed d => exact (iho d).imp fun _ _ h => .failed ha h
    | unstarted => exact ⟨_, _, .here, .call ha⟩

end Plan

/-- A production at a cursor calls another one, at a later cursor or at the same. -/
def Starts (x y : Production × Cursor) : Prop :=
  ∃ next otherwise, (plan x.1).Reaches x.2 (.call y.1 next otherwise) y.2

/-! ## Whole parses -/

section FileLoop

variable {c : Cursor}

/-- A round of the file loop at a declaration, -/
theorem fileLoop_binding {b : Binding} (h : c.current = some (.keyword (.binding b))) :
    fileLoop c = (declaration b c).answer.elim
      (fun s d => (fileLoop d).elim (fun es e => .found (.statement s :: es) e) .failed) (.found []) := by
  refine (plan_entities c).trans ((Plan.answer_look h).trans ?_)
  rw [← answer_declaration h]
  rfl

/-- and at a function. -/
theorem fileLoop_function (h : c.current = some (.keyword .function)) :
    fileLoop c = (function c).answer.elim
      (fun f d => (fileLoop d.stepped).elim (fun es e => .found (.function f :: es) e) .failed) (.found []) := by
  refine (plan_entities c).trans ((Plan.answer_look h).trans ?_)
  show (answer .function c).elim _ _ = _
  rw [answer_function]
  cases (function c).answer <;> rfl

/-- No other token begins a round. -/
theorem fileLoop_foreign {t : Token} (h : c.current = some t) (hn : t ≠ .newLine) (hb : ∀ b, t ≠ .keyword (.binding b))
    (hf : t ≠ .keyword .function) : fileLoop c = .found [] c := by
  refine (plan_entities c).trans ((Plan.answer_look h).trans ?_)
  cases t with
  | newLine => exact absurd rfl hn
  | keyword k =>
    cases k with
    | binding b => exact absurd rfl (hb b)
    | function => exact absurd rfl hf
    | _ => rfl
  | _ => rfl

/-- The file loop finds the entities of a reading. Where the tokens are used up behind a function, its closing brace begins
no further one. -/
theorem fileLoop_entities (total : Nat) (c : Cursor) (h : c.current.isSome) :
    ∃ d, fileLoop c = .found ((entities total c).entities.map Prod.fst) d := by
  fun_induction entities total c with
  | case1 c hc =>
    rw [hc] at h
    cases h
  | case2 c hc hend =>
    obtain ⟨_, _ | ⟨t, ts⟩⟩ := c
    · cases hc
      exact ⟨_, by rw [fileLoop]; rfl⟩
    · cases hend
  | case3 c hc d hd ih =>
    obtain ⟨_, _ | ⟨t, ts⟩⟩ := c
    · cases hd
    · cases hc
      cases hd
      rw [fileLoop]
      exact ih rfl
  | case4 c b hc s d hlt hm ih =>
    have hstarted := started_declaration b c h
    rw [hm] at hstarted
    obtain ⟨e, he⟩ := ih hstarted
    refine ⟨e, ?_⟩
    rw [fileLoop_binding hc, hm, Outcome.answer, Answer.elim, he]
    rfl
  | case5 c b hc hm =>
    obtain ⟨d, hd⟩ := (started_declaration b c h).exists_failed hm
    refine ⟨d, ?_⟩
    rw [fileLoop_binding hc, hd]
    rfl
  | case6 c hc f d hlt hm hend =>
    obtain ⟨-, -, -, hbrace⟩ := function_sound hc (by rw [hm]; rfl)
    have hstop : fileLoop d = .found [] d := fileLoop_foreign hbrace (by simp) (by simp) (by simp)
    refine ⟨d, ?_⟩
    rw [fileLoop_function hc, hm, Outcome.answer, Answer.elim, Cursor.stepped, hend, Option.getD_none, hstop]
    rfl
  | case7 c hc f d hlt hm e he ih =>
    obtain ⟨g, hg⟩ := ih (Cursor.current_of_advance he)
    refine ⟨g, ?_⟩
    rw [fileLoop_function hc, hm, Outcome.answer, Answer.elim, Cursor.stepped, he, Option.getD_some, hg]
    rfl
  | case8 c hc hm =>
    obtain ⟨d, hd⟩ := (started_function c h).exists_failed hm
    refine ⟨d, ?_⟩
    rw [fileLoop_function hc, hd]
    rfl
  | case9 c t hn hb hf hc => exact ⟨c, fileLoop_foreign hc hn hb hf⟩

end FileLoop

/-- Every list of tokens is a file, -/
theorem answer_file (tokens : List Token) :
    ∃ d, answer .file (Cursor.before (significant tokens)) = .found (File.ofTokens tokens).entities d := by
  cases h : significant tokens with
  | nil =>
    refine ⟨Cursor.before [], ?_⟩
    rw [File.ofTokens, Reading.ofTokens, h]
    rfl
  | cons t ts =>
    obtain ⟨d, hd⟩ := fileLoop_entities (t :: ts).length (Cursor.on (t :: ts)) rfl
    refine ⟨d, ?_⟩
    rw [File.ofTokens, reading_ofTokens (by simp [h]), h]
    exact hd

/-- and some begin with an expression. -/
theorem answer_single (tokens : List Token) :
    answer .single (Cursor.before (significant tokens)) = (Expr.outcome tokens).answer := rfl

end Grammar

end Parlance
