import Parlance.Proofs.Token.LineFeed
import Parlance.Proofs.Token.OpenText

/-!
# The shape of every token

What tokens hold in any text, end marks included. They are proper, with one exception: an operator goes on over end marks,
so where an end mark stands behind a symbol, a later character may release an operator that is no run of symbols
(`lex_shape`). Such an operator is a piece of the text as it stands.
-/

namespace Parlance

theorem IsRun.isWord {word : List Char} (h : IsRun isWordStart isWordPart word) : IsWord word := by
  cases word with
  | nil => exact h
  | cons c cs => exact ⟨h.1, List.all_eq_true.mpr h.2⟩

/-- A run over symbols and end marks is an operator, if it holds no end mark. -/
theorem IsRun.isOperator {symbols : List Char}
    (h : IsRun isOperatorSymbol (fun c => isOperatorSymbol c || isEndMark c) symbols) (hend : endMark ∉ symbols) :
    IsOperator (.ofList symbols) := by
  cases symbols with
  | nil => exact h.elim
  | cons c cs =>
    have hall : ∀ d ∈ cs, isOperatorSymbol d = true := by
      intro d hd
      have hne : d ≠ endMark := fun he => hend (he ▸ List.mem_cons_of_mem c hd)
      simpa [isEndMark, hne] using h.2 d hd
    rw [IsOperator, String.toList_ofList]
    exact ⟨List.cons_ne_nil _ _, by rw [List.all_cons, h.1, List.all_eq_true.mpr hall, Bool.true_and]⟩

/-- Whatever character releases an open token, the token is the same. -/
theorem State.closed_of_release {q : State} {recent : List Char} {c : Char} {t : Token} (h : q.move recent c = .release t) :
    q.closed recent.reverse = some t := by
  cases moves_of_move h with
  | start first => cases first
  | release token _ => exact token

namespace Automaton

/-! ## Where an operator is open -/

section Operator

variable {a : Automaton} {q : State} {recent : List Char} {c v : Char}

/-- A character is skipped with no token open only. -/
theorem idle_of_move (h : q.move recent c = .skip) : q = .idle := by
  cases State.moves_of_move h with
  | start _ => rfl

/-- A symbol begins an operator where nothing is open; symbols and end marks extend it. -/
theorem move_extend_operator (h : q.move recent c = .extend .operator) :
    (q = .idle ∧ isOperatorSymbol c = true) ∨ (q = .operator ∧ (isOperatorSymbol c = true ∨ c = endMark)) := by
  cases State.moves_of_move h with
  | start first =>
    cases first with
    | operator symbol => exact .inl ⟨rfl, symbol⟩
  | extend more =>
    cases more with
    | operator part => exact .inr ⟨rfl, by simpa [isEndMark] using part⟩

theorem move_ne_resolve_operator : q.move recent c ≠ .resolve v .operator := by
  intro h
  cases State.moves_of_move h with
  | start first => cases first

/-- An operator that is open behind a character was begun by it, or was open before and is extended by it. -/
theorem feed_operator (ha : a.state.Opens a.text) (h : (a.feed c).1.state = .operator) :
    ((a.feed c).1.text = [c] ∧ isOperatorSymbol c = true) ∨
      (a.state = .operator ∧ (a.feed c).1.text = a.text ++ [c] ∧ (isOperatorSymbol c = true ∨ c = endMark)) := by
  cases hm : a.move c with
  | extend next =>
    rw [feed_extend hm] at h ⊢
    cases h
    have htext : text ⟨.operator, c :: a.recent⟩ = a.text ++ [c] := List.reverse_cons
    rcases move_extend_operator hm with ⟨hq, hc⟩ | ⟨hq, hc⟩
    · rw [hq] at ha
      cases ha' : a.text with
      | nil =>
        rw [ha'] at htext
        exact .inl ⟨htext, hc⟩
      | cons d ds =>
        rw [ha'] at ha
        cases ha
    · exact .inr ⟨hq, htext, hc⟩
  | resolve v next =>
    rw [feed_resolve hm] at h
    cases h
    exact absurd hm move_ne_resolve_operator
  | finish t =>
    rw [feed_finish hm] at h
    cases h
  | release t =>
    rw [feed_release hm, feed_fresh] at h ⊢
    cases hs : State.start c with
    | extend next =>
      rw [hs] at h
      cases h
      have hidle : State.idle.move [] c = .extend .operator := hs
      rcases move_extend_operator hidle with ⟨-, hc⟩ | ⟨hq, -⟩
      · exact .inl ⟨rfl, hc⟩
      · cases hq
    | resolve v next => exact absurd hs State.start_ne_resolve
    | _ =>
      rw [hs] at h
      cases h
  | skip =>
    rw [feed_skip hm, idle_of_move hm] at h
    cases h

/-- The characters of an open operator stand at the end of the text that was read. -/
theorem text_suffix_run {front : List Char} (ha : a.state.Opens a.text) (h : a.state = .operator → a.text <:+ front)
    (text : List Char) (hq : (a.run text).1.state = .operator) : (a.run text).1.text <:+ front ++ text := by
  induction text generalizing a front with
  | nil =>
    rw [List.append_nil]
    exact h hq
  | cons c cs ih =>
    rw [List.append_cons]
    refine ih (opens_feed ha c) (fun hfeed => ?_) hq
    rcases feed_operator ha hfeed with ⟨htext, -⟩ | ⟨hopen, htext, -⟩
    · rw [htext]
      exact List.suffix_append front [c]
    · rw [htext]
      exact (List.suffix_append_inj_of_length_eq rfl).mpr ⟨h hopen, rfl⟩

end Operator

/-! ## What a character completes -/

section Tokens

variable {q : State} {text : List Char} {c : Char} {t : Token}

theorem proper_of_start (h : State.start c = .finish t) : t.Proper := by
  cases State.begins_of_start h <;> trivial

/-- A token that is finished by its last character is proper. -/
theorem proper_of_finish (h : q.Opens text) (hm : q.move text.reverse c = .finish t) : t.Proper := by
  cases State.moves_of_move hm with
  | start first =>
    cases h
    exact proper_of_start hm
  | finishEmpty | finishOverfull => trivial
  | finishChar =>
    cases h with
    | charFilled proper => exact proper
  | finishString =>
    cases h with
    | @string body proper =>
      rw [List.reverse_reverse]
      show endMark ∉ (String.ofList body).toList
      rwa [String.toList_ofList]

/-- A released token is proper, unless it is an operator. -/
theorem proper_of_release (h : q.Opens text) (hm : q.move text.reverse c = .release t) :
    t.Proper ∨ (q = .operator ∧ t = .operator (.ofList text)) := by
  have hclosed := State.closed_of_release hm
  rw [List.reverse_reverse] at hclosed
  cases h with
  | idle => cases hclosed
  | word run =>
    cases hclosed
    exact .inl (proper_ofWord run.isWord)
  | operator run =>
    cases hclosed
    exact .inr ⟨rfl, rfl⟩
  | _ =>
    cases hclosed
    exact .inl trivial

/-- The characters of an open operator: a symbol, and then symbols and end marks. -/
theorem isRun_of_opens (h : q.Opens text) (hq : q = .operator) :
    IsRun isOperatorSymbol (fun c => isOperatorSymbol c || isEndMark c) text := by
  cases h with
  | operator run => exact run
  | _ => cases hq

end Tokens

end Automaton

/-! ## Whole texts -/

/-- The tokens of a text are proper, but for the operators: these are pieces of the text. -/
theorem proper_or_operator_of_mem_lex {s : List Char} {t : Token} (ht : t ∈ lex s) :
    t.Proper ∨ ∃ o, t = .operator (.ofList o) ∧
      IsRun isOperatorSymbol (fun c => isOperatorSymbol c || isEndMark c) o ∧ o <:+: s := by
  obtain ⟨front, c, back, htext, hfeed⟩ := Automaton.mem_run ht
  have hopens := Automaton.opens_run_from (a := .fresh) .idle front
  have hsuffix : (Automaton.fresh.run front).1.state = .operator → (Automaton.fresh.run front).1.text <:+ [] ++ front :=
    Automaton.text_suffix_run (a := .fresh) .idle nofun front
  generalize (Automaton.fresh.run front).1 = a at hfeed hopens hsuffix
  rcases Automaton.mem_feed hfeed with hfinish | hrelease | hstart
  · exact .inl (Automaton.proper_of_finish hopens ((a.move_text c).trans hfinish))
  · rcases Automaton.proper_of_release hopens ((a.move_text c).trans hrelease) with hproper | ⟨hq, rfl⟩
    · exact .inl hproper
    -- what releases the operator may be the end mark behind the text, but all that stands in front of it is text
    have hfront : front <+: s := by
      have hlength : front.length ≤ s.length := by
        have := congrArg List.length htext
        simp at this
        omega
      have hread : front <+: s ++ [endMark] := ⟨c :: back, htext.symm⟩
      exact List.prefix_of_prefix_length_le hread (List.prefix_append s [endMark]) hlength
    exact .inr ⟨a.text, rfl, Automaton.isRun_of_opens hopens hq, (hsuffix hq).isInfix.trans hfront.isInfix⟩
  · exact .inl (Automaton.proper_of_start hstart)

/-- The tokens of a text without end marks are proper. -/
theorem proper_of_mem_lex {text : List Char} (h : endMark ∉ text) : ∀ t ∈ lex text, t.Proper := by
  intro t ht
  rcases proper_or_operator_of_mem_lex ht with hproper | ⟨o, rfl, hrun, hpiece⟩
  · exact hproper
  · exact hrun.isOperator fun hend => h (hpiece.subset hend)

/-- **The tokens of any text** are proper, but for operators with end marks among their symbols: these are pieces of the text
that begin with a symbol. -/
theorem lex_shape (s : List Char) : ∀ t ∈ lex s, t.Proper ∨ ∃ o : List Char, t = .operator (.ofList o) ∧
    IsRun isOperatorSymbol (fun c => isOperatorSymbol c || isEndMark c) o ∧ endMark ∈ o ∧ o <:+: s := by
  intro t ht
  rcases proper_or_operator_of_mem_lex ht with hproper | ⟨o, rfl, hrun, hpiece⟩
  · exact .inl hproper
  by_cases hend : endMark ∈ o
  · exact .inr ⟨o, rfl, hrun, hend, hpiece⟩
  · exact .inl (hrun.isOperator hend)

/-- An operator that holds an end mark, and goes on behind it. -/
theorem lex_shape_marked : .operator "*\x00-" ∈ lex "a*\x00- 'b'".toList ∧
    ((Token.operator "*\x00-").Proper ∨ ∃ o : List Char, Token.operator "*\x00-" = .operator (.ofList o) ∧
      IsRun isOperatorSymbol (fun c => isOperatorSymbol c || isEndMark c) o ∧ endMark ∈ o ∧
      o <:+: "a*\x00- 'b'".toList) := by
  have hmem : .operator "*\x00-" ∈ lex "a*\x00- 'b'".toList := by decide
  exact ⟨hmem, lex_shape _ _ hmem⟩

/-- Such an operator is not proper. -/
theorem lex_not_proper : ¬∀ t ∈ lex "+\x00 ".toList, t.Proper := by
  intro h
  have hoperator : IsOperator "+\x00" := h (.operator "+\x00") (by decide)
  revert hoperator
  decide

end Parlance
