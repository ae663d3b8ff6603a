import Parlance.Proofs.Grammar.Ahead

/-!
# Scripts

A production sees its tokens only one after the other. A **script** is all that it can do with them: look at the current
token, take the next one, and go on as that token says, until there is a value or a token does not fit. `Runs` relates a
script to the outcome it has from a cursor, and `Uniform` says of a family of outcomes, from cursors of any kind, that one
script accounts for all of them.

* A script takes tokens and never gives one back (`Runs.left_le`), and it does not look at a cursor that is not started
  unless it begins on one (`Runs.started`).
* Tokens that a script did not take can be replaced by any others (`Runs.replace`).
* What is built from uniform outcomes by the combinators of productions is uniform (`Uniform.take`, `Uniform.bind` and
  the lemmas around them), so that a production needs no more than its own definition to have a script.
-/

namespace Parlance

/-- What a production does with its tokens. -/
inductive Script (α : Type) where
  | done (value : α)
  /-- The current token does not fit. -/
  | fail
  /-- Looks at the current token. -/
  | look (next : Token → Script α)
  /-- Takes the next token. -/
  | take (next : Token → Script α)

/-- How many tokens an outcome leaves behind its cursor; none where one more was asked for. -/
def Outcome.left {α : Type} {n : Nat} : Outcome α n → Nat
  | matched _ c _ | mismatched c => c.unread.length
  | exhausted _ | unstarted => 0

/-- A failure without the end of the tokens met leaves as many as were not asked for. -/
theorem Outcome.Fails.left_pos {α : Type} {n total : Nat} {o : Outcome α n} (h : o.Fails) (hasked : o.asked total < total) :
    0 < o.left := by
  obtain ⟨c, rfl | rfl⟩ := h
  · simp only [asked] at hasked
    simp only [left]
    omega
  · simp only [asked] at hasked
    omega

/-- What is not left has been asked for. -/
theorem Outcome.Started.le_asked {α : Type} {m n : Nat} {o : Outcome α n} (h : o.Started) (hm : o.left ≤ m) (total : Nat) :
    total - m ≤ o.asked total := by
  cases o with
  | matched a c hc => exact Nat.sub_le_sub_left hm total
  | mismatched c => exact Nat.sub_le_sub_left hm total
  | exhausted c => exact Nat.le_succ_of_le (Nat.sub_le total m)
  | unstarted => exact h.elim

/-- The outcomes are one but for the tokens behind their cursors, which end in `v` and in `w`. -/
inductive Outcome.Alike {α : Type} {m n : Nat} (v w : List Token) : Outcome α m → Outcome α n → Prop
  | matched {a : α} {t : Option Token} {q : List Token} (hv : (q ++ v).length < m) (hw : (q ++ w).length < n) :
      Alike v w (.matched a ⟨t, q ++ v⟩ hv) (.matched a ⟨t, q ++ w⟩ hw)
  | mismatched (t : Option Token) (q : List Token) : Alike v w (.mismatched ⟨t, q ++ v⟩) (.mismatched ⟨t, q ++ w⟩)
  | unstarted : Alike v w .unstarted .unstarted

theorem Outcome.Alike.value {α : Type} {m n : Nat} {v w : List Token} {o : Outcome α m} {o' : Outcome α n}
    (h : o.Alike v w o') : o.result?.map Prod.fst = o'.result?.map Prod.fst := by
  cases h <;> rfl

namespace Script

variable {α β : Type} {m n : Nat}

/-- Goes on with the value of a script. -/
def bind : Script α → (α → Script β) → Script β
  | done a, next => next a
  | fail, _ => fail
  | look f, next => look fun t => (f t).bind next
  | take f, next => take fun t => (f t).bind next

/-- Takes tokens up to the first that is no line break, where that is one of the next `n`. -/
def overNewLines (next : Token → Script α) : (n : Nat) → Script α
  | 0 => fail
  | n + 1 => take fun t => if t = .newLine then overNewLines next n else next t

/-- From the cursor `c`, the script comes to the outcome `o`. -/
def Runs : Script α → (c : Cursor) → (o : Outcome α n) → Prop
  | done a, c, o => ∃ h, o = .matched a c h
  | fail, c, o => o = .mismatched c
  | look next, c, o =>
    match c.current with
    | none => o = .unstarted
    | some t => (next t).Runs c o
  | take next, c, o =>
    match c.unread with
    | [] => o = .exhausted c
    | t :: ts => (next t).Runs ⟨some t, ts⟩ o

/-! ## What every script does -/

section Runs

variable {s : Script α} {c : Cursor} {o : Outcome α n}

/-- Tokens that were taken are not given back. -/
theorem Runs.left_le (h : s.Runs c o) : o.left ≤ c.unread.length := by
  induction s generalizing c with
  | done a =>
    obtain ⟨_, rfl⟩ := h
    exact Nat.le_refl _
  | fail =>
    obtain rfl := h
    exact Nat.le_refl _
  | look next ih =>
    obtain ⟨_ | t, ts⟩ := c
    · obtain rfl := h
      exact Nat.zero_le _
    · exact ih t h
  | take next ih =>
    obtain ⟨current, _ | ⟨t, ts⟩⟩ := c
    · obtain rfl := h
      exact Nat.zero_le _
    · exact Nat.le_succ_of_le (ih t h)

/-- Started on a cursor with a current token, a script never looks at one without. -/
theorem Runs.started (h : s.Runs c o) (hc : c.current.isSome) : o.Started := by
  induction s generalizing c with
  | done a =>
    obtain ⟨_, rfl⟩ := h
    exact hc
  | fail =>
    obtain rfl := h
    exact hc
  | look next ih =>
    obtain ⟨_ | t, ts⟩ := c
    · cases hc
    · exact ih t h rfl
  | take next ih =>
    obtain ⟨current, _ | ⟨t, ts⟩⟩ := c
    · obtain rfl := h
      exact hc
    · exact ih t h rfl

/-- **Replacement.** A script that leaves all of the tokens `v` comes to the same end on any other tokens in their place, and
leaves those. -/
theorem Runs.replace {n' : Nat} {t : Option Token} {p v w : List Token} {o' : Outcome α n'} (h : s.Runs ⟨t, p ++ v⟩ o)
    (h' : s.Runs ⟨t, p ++ w⟩ o') (hv : v ≠ []) (hleft : v.length ≤ o.left) : o.Alike v w o' := by
  induction s generalizing t p with
  | done a =>
    obtain ⟨_, rfl⟩ := h
    obtain ⟨_, rfl⟩ := h'
    exact .matched _ _
  | fail =>
    obtain rfl := h
    obtain rfl := h'
    exact .mismatched t p
  | look next ih =>
    cases t with
    | none =>
      obtain rfl := h
      obtain rfl := h'
      exact .unstarted
    | some t => exact ih t h h'
  | take next ih =>
    cases p with
    | cons u p => exact ih u h h'
    | nil =>
      -- the script takes the first of `v`
      obtain ⟨u, us, rfl⟩ := List.exists_cons_of_ne_nil hv
      have htaken : o.left ≤ us.length := Runs.left_le (s := next u) (c := ⟨some u, us⟩) h
      exact absurd (Nat.le_trans hleft htaken) (Nat.not_succ_le_self _)

/-! ## Scripts of the combinators -/

theorem runs_look {k : Token → Script α} {next : Token → Outcome α n} (h : ∀ t, (k t).Runs c (next t)) :
    (look k).Runs c (c.look next) := by
  obtain ⟨_ | t, ts⟩ := c
  · rfl
  · exact h t

theorem runs_take {k : Token → Script α}
    {next : Token → (d : Cursor) → d.unread.length < c.unread.length → Outcome α n}
    (h : ∀ t d hd, (k t).Runs d (next t d hd)) : (take k).Runs c (c.take next) := by
  obtain ⟨current, _ | ⟨t, ts⟩⟩ := c
  · rfl
  · exact h t _ _

theorem Runs.bind {o : Outcome α m} {next : α → (c : Cursor) → c.unread.length < m → Outcome β n} {k : α → Script β}
    (h : s.Runs c o) (hnext : ∀ a d hd, (k a).Runs d (next a d hd)) : (s.bind k).Runs c (o.bind next) := by
  induction s generalizing c with
  | done a =>
    obtain ⟨_, rfl⟩ := h
    exact hnext _ _ _
  | fail =>
    obtain rfl := h
    rfl
  | look f ih =>
    obtain ⟨_ | t, ts⟩ := c
    · obtain rfl := h
      rfl
    · exact ih t h
  | take f ih =>
    obtain ⟨current, _ | ⟨t, ts⟩⟩ := c
    · obtain rfl := h
      rfl
    · exact ih t h

/-- Stepping over line breaks goes on with the token behind them, or asks for one more than there are. -/
theorem runs_overNewLines {k : Token → Script α} {N : Nat} {current : Option Token} {ts : List Token} (hN : ts.length < N)
    (hfound : ∀ t us, Cursor.overNewLines current ts = (true, ⟨some t, us⟩) → (k t).Runs ⟨some t, us⟩ o)
    (hnone : ∀ d, Cursor.overNewLines current ts = (false, d) → o = .exhausted d) :
    (overNewLines k N).Runs ⟨current, ts⟩ o := by
  induction ts generalizing current N with
  | nil =>
    obtain ⟨M, rfl⟩ := Nat.exists_eq_add_one_of_ne_zero (Nat.ne_zero_of_lt hN)
    exact hnone _ rfl
  | cons t ts ih =>
    obtain ⟨M, rfl⟩ := Nat.exists_eq_add_one_of_ne_zero (Nat.ne_zero_of_lt hN)
    show (if t = .newLine then overNewLines k M else k t).Runs ⟨some t, ts⟩ o
    split
    · rename_i ht
      subst ht
      exact ih (Nat.lt_of_succ_lt_succ hN) hfound hnone
    · rename_i ht
      exact hfound t ts (Cursor.overNewLines_lineBreaks 0 current ts ht)

theorem runs_takeOverNewLines {k : Token → Script α} {N : Nat} (hN : c.unread.length < N)
    {next : Token → (d : Cursor) → d.unread.length < c.unread.length → Outcome α n}
    (hnext : ∀ t d hd, (k t).Runs d (next t d hd)) : (overNewLines k N).Runs c (c.takeOverNewLines next) := by
  refine runs_overNewLines hN (fun t us h => ?_) fun d h => Cursor.takeOverNewLines_of_none h
  rw [Cursor.takeOverNewLines_of_found h]
  exact hnext t _ _

end Runs

end Script

/-! ## Uniform families -/

/-- One script accounts for all the outcomes `f i` from the cursors `cur i`. -/
def Uniform {ι α : Type} {n : ι → Nat} (cur : ι → Cursor) (f : (i : ι) → Outcome α (n i)) : Prop :=
  ∃ s : Script α, ∀ i, s.Runs (cur i) (f i)

/-- The cursors that may stand behind a step or a match of each member of a family, where `m i` tokens were unread. -/
abbrev Behind {ι : Type} (m : ι → Nat) : Type := (i : ι) × {d : Cursor // d.unread.length < m i}

namespace Behind

variable {ι : Type} {m : ι → Nat}

def cursor (j : Behind m) : Cursor := j.2.1

theorem progress (j : Behind m) : j.cursor.unread.length < m j.1 := j.2.2

/-- A bound on the unread tokens of a family holds behind a step as well. -/
theorem lt_of_lt {N : Nat} (h : ∀ i, m i < N) (j : Behind m) : j.cursor.unread.length < N :=
  Nat.lt_trans j.progress (h j.1)

/-- It even comes down by one. -/
theorem lt_of_lt_succ {N : Nat} (h : ∀ i, m i < N + 1) (j : Behind m) : j.cursor.unread.length < N :=
  Nat.lt_of_lt_of_le j.progress (Nat.le_of_lt_succ (h j.1))

end Behind

namespace Uniform

variable {ι α β : Type} {m n : ι → Nat} {cur : ι → Cursor}

theorem done {a : α} (h : ∀ i, (cur i).unread.length < n i) : Uniform cur fun i => .matched a (cur i) (h i) :=
  ⟨.done a, fun i => ⟨h i, rfl⟩⟩

theorem fail : Uniform cur fun i => (.mismatched (cur i) : Outcome α (n i)) :=
  ⟨.fail, fun _ => rfl⟩

/-- With no cursor there is nothing to account for. -/
theorem empty {f : (i : ι) → Outcome α (n i)} (h : ∀ i, (cur i).unread.length < 0) : Uniform cur f :=
  ⟨.fail, fun i => absurd (h i) (Nat.not_lt_zero _)⟩

theorem ite {p : Prop} [Decidable p] {f g : (i : ι) → Outcome α (n i)} (hf : p → Uniform cur f)
    (hg : ¬p → Uniform cur g) : Uniform cur fun i => if p then f i else g i := by
  by_cases hp : p
  · simpa only [if_pos hp] using hf hp
  · simpa only [if_neg hp] using hg hp

theorem look {next : (i : ι) → Token → Outcome α (n i)} (h : ∀ t, Uniform cur fun i => next i t) :
    Uniform cur fun i => (cur i).look (next i) := by
  obtain ⟨s, hs⟩ := Classical.skolem.mp h
  exact ⟨.look s, fun i => Script.runs_look fun t => hs t i⟩

theorem take {next : (i : ι) → Token → (d : Cursor) → d.unread.length < (cur i).unread.length → Outcome α (n i)}
    (h : ∀ t, Uniform Behind.cursor fun j : Behind fun i => (cur i).unread.length => next j.1 t j.cursor j.progress) :
    Uniform cur fun i => (cur i).take (next i) := by
  obtain ⟨s, hs⟩ := Classical.skolem.mp h
  exact ⟨.take s, fun i => Script.runs_take fun t d hd => hs t ⟨i, d, hd⟩⟩

theorem bind {f : (i : ι) → Outcome α (m i)}
    {next : (i : ι) → α → (d : Cursor) → d.unread.length < m i → Outcome β (n i)} (hf : Uniform cur f)
    (h : ∀ a, Uniform Behind.cursor fun j : Behind m => next j.1 a j.cursor j.progress) :
    Uniform cur fun i => (f i).bind (next i) := by
  obtain ⟨s, hs⟩ := hf
  obtain ⟨k, hk⟩ := Classical.skolem.mp h
  exact ⟨s.bind k, fun i => (hs i).bind fun a d hd => hk a ⟨i, d, hd⟩⟩

theorem map {f : (i : ι) → Outcome α (m i)} {g : α → β} (hf : Uniform cur f) : Uniform cur fun i => (f i).map g :=
  hf.bind fun _ => done Behind.progress

theorem expect {t : Token} {next : (i : ι) → (d : Cursor) → d.unread.length < (cur i).unread.length → Outcome α (n i)}
    (h : Uniform Behind.cursor fun j : Behind fun i => (cur i).unread.length => next j.1 j.cursor j.progress) :
    Uniform cur fun i => (cur i).expect t (next i) :=
  take fun _ => ite (fun _ => h) fun _ => fail

theorem expectName
    {next : (i : ι) → String → (d : Cursor) → d.unread.length < (cur i).unread.length → Outcome α (n i)}
    (h : ∀ name, Uniform Behind.cursor fun j : Behind fun i => (cur i).unread.length => next j.1 name j.cursor j.progress) :
    Uniform cur fun i => (cur i).expectName (next i) := by
  refine take fun t => ?_
  cases t with
  | identifier name => exact h name
  | _ => exact fail

theorem takeOverNewLines {N : Nat} (hN : ∀ i, (cur i).unread.length < N)
    {next : (i : ι) → Token → (d : Cursor) → d.unread.length < (cur i).unread.length → Outcome α (n i)}
    (h : ∀ t, Uniform Behind.cursor fun j : Behind fun i => (cur i).unread.length => next j.1 t j.cursor j.progress) :
    Uniform cur fun i => (cur i).takeOverNewLines (next i) := by
  obtain ⟨s, hs⟩ := Classical.skolem.mp h
  exact ⟨.overNewLines s N, fun i => Script.runs_takeOverNewLines (hN i) fun t d hd => hs t ⟨i, d, hd⟩⟩

/-- A production with scripts, from one cursor. -/
theorem started {f : (c : Cursor) → Outcome α c.unread.length} {c : Cursor} (hc : c.current.isSome)
    (h : ∀ (N : Nat) (cur : Unit → Cursor), (∀ i, (cur i).unread.length < N) → Uniform cur fun i => f (cur i)) :
    (f c).Started := by
  obtain ⟨s, hs⟩ := h (c.unread.length + 1) (fun _ => c) fun _ => Nat.lt_succ_self _
  exact (hs ()).started hc

theorem left_le {f : (c : Cursor) → Outcome α c.unread.length} (c : Cursor)
    (h : ∀ (N : Nat) (cur : Unit → Cursor), (∀ i, (cur i).unread.length < N) → Uniform cur fun i => f (cur i)) :
    (f c).left ≤ c.unread.length := by
  obtain ⟨s, hs⟩ := h (c.unread.length + 1) (fun _ => c) fun _ => Nat.lt_succ_self _
  exact (hs ()).left_le

/-- **Replacement**, for a production with scripts. -/
theorem replace {f : (c : Cursor) → Outcome α c.unread.length}
    (h : ∀ (N : Nat) (cur : Bool → Cursor), (∀ i, (cur i).unread.length < N) → Uniform cur fun i => f (cur i))
    {t : Option Token} {p v : List Token} (w : List Token) (hv : v ≠ []) (hleft : v.length ≤ (f ⟨t, p ++ v⟩).left) :
    (f ⟨t, p ++ v⟩).Alike v w (f ⟨t, p ++ w⟩) := by
  obtain ⟨s, hs⟩ := h (p.length + v.length + w.length + 1) (fun i => ⟨t, p ++ cond i w v⟩) fun i => by
    cases i <;> simp only [cond_true, cond_false, List.length_append] <;> omega
  exact Script.Runs.replace (hs false) (hs true) hv hleft

end Uniform

end Parlance
