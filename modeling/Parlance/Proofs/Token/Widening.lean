import Mathlib.Data.List.Induction
import Parlance.Proofs.Text.Widening
import Parlance.Proofs.Token.Line
import Parlance.Proofs.Tree.Payload

/-!
# Tokens of a text and of its bytes

The automaton reads the bytes of a text as it reads the text. One character outside ASCII becomes two or more, so the two
runs pass through different states: the bytes of such a character are unknown symbols outside quotes, more of the open
string or comment inside, and too many for a character literal. `Alongside` relates the two automata and one character
keeps it (`alongside_step`), so the significant tokens are the same up to the literals (`significant_lex_widen`). Without
such characters in quotes, an automaton is alongside itself, and the literals are the same too
(`significant_lex_widen_of_narrowQuotes`).
-/

namespace Parlance

/-- The literal that is read from the bytes: a string has the bytes of its text, and a character outside ASCII is too long
for a character literal. -/
def Literal.widened : Literal → Literal
  | string v => string (.ofList (Parlance.widened v.toUTF8))
  | char c => if IsWide c then badChar else char c
  | l => l

theorem Literal.widened_string (body : List Char) :
    (Literal.string (.ofList body)).widened = .string (.ofList (body.flatMap widen)) := by
  rw [Literal.widened, widened_toUTF8]

/-- A token that reads the same from the bytes. -/
def Token.Narrow (t : Token) : Prop := t.mapLiteral Literal.widened = t

namespace Automaton

/-- A state that all these characters extend reads them without completing a token. -/
theorem run_extend {q : State} {cs : List Char} (h : ∀ c ∈ cs, ∀ recent, q.move recent c = .extend q)
    (recent : List Char) : run ⟨q, recent⟩ cs = (⟨q, cs.reverse ++ recent⟩, []) := by
  induction cs generalizing recent with
  | nil => rfl
  | cons c cs ih =>
    obtain ⟨hc, hcs⟩ := List.forall_mem_cons.mp h
    have hstep : feed ⟨q, recent⟩ c = (⟨q, c :: recent⟩, []) := feed_extend (hc recent)
    rw [run, hstep]
    simp only [ih hcs, List.nil_append, List.reverse_cons, List.append_assoc, List.singleton_append]

/-! ## The two automata -/

/-- An automaton that has read a text, and one that has read its bytes. -/
inductive Alongside : (a b : Automaton) → Prop
  | idle : Alongside fresh fresh
  | bare {q : State} {recent : List Char} : q.Bare → Alongside ⟨q, recent⟩ ⟨q, recent⟩
  | charOpen : Alongside ⟨.charOpen, ['\'']⟩ ⟨.charOpen, ['\'']⟩
  | charEscape : Alongside ⟨.charEscape, ['\\', '\'']⟩ ⟨.charEscape, ['\\', '\'']⟩
  | charFilled {v : Char} : ¬IsWide v → Alongside ⟨.charFilled, [v, '\'']⟩ ⟨.charFilled, [v, '\'']⟩
  /-- The bytes of the one character are too many already. -/
  | charWide {v : Char} {recent : List Char} : IsWide v → Alongside ⟨.charFilled, [v, '\'']⟩ ⟨.charOverfull, recent⟩
  | charOverfull {recent recent' : List Char} : Alongside ⟨.charOverfull, recent⟩ ⟨.charOverfull, recent'⟩
  | string (body : List Char) : Alongside (openString body) (openString (body.flatMap widen))
  | stringEscape (body : List Char) : Alongside ⟨.stringEscape, '\\' :: (openString body).recent⟩
      ⟨.stringEscape, '\\' :: (openString (body.flatMap widen)).recent⟩
  | comment {recent recent' : List Char} : Alongside ⟨.comment, recent⟩ ⟨.comment, recent'⟩

/-- Two readings that leave automata alongside each other and complete the same significant tokens, up to their literals. -/
def InStep (x y : Automaton × List Token) : Prop :=
  Alongside x.1 y.1 ∧ significant y.2 = (significant x.2).map (Token.mapLiteral Literal.widened)

section Steps

variable {a b : Automaton} {c : Char} {t : Token}

theorem InStep.append {s s' : List Char} {u u' : List Char} (h : InStep (a.run s) (b.run s'))
    (h' : InStep ((a.run s).1.run u) ((b.run s').1.run u')) : InStep (a.run (s ++ u)) (b.run (s' ++ u')) := by
  rw [run_append, run_append]
  refine ⟨h'.1, ?_⟩
  show significant (_ ++ _) = (significant (_ ++ _)).map _
  rw [significant_append, significant_append, List.map_append, h.2, h'.2]

/-- A narrow token in front of two readings. -/
theorem InStep.cons {x y : Automaton × List Token} (ht : t.Narrow) (h : InStep x y) :
    InStep (x.1, t :: x.2) (y.1, t :: y.2) := by
  refine ⟨h.1, ?_⟩
  have hrest := h.2
  unfold significant at hrest ⊢
  rw [List.filter_cons, List.filter_cons, hrest]
  split
  · rw [List.map_cons, ht]
  · rfl

/-! ### With no token open -/

/-- The moves with no token open. -/
inductive Starts (c : Char) : Move → Prop
  | bare {q : State} : q.Bare → Starts c (.extend q)
  | comment : Starts c (.extend .comment)
  | char : c = '\'' → Starts c (.extend .charOpen)
  | string : c = '"' → Starts c (.extend .string)
  | finish {t : Token} : t.Narrow → Starts c (.finish t)
  | skip : Starts c .skip

theorem starts (c : Char) : Starts c (State.start c) := by
  have hm := State.begins c
  generalize State.start c = m at hm
  cases hm with
  | word | zero | numeral | operator | blank => exact .bare trivial
  | comment => exact .comment
  | char quote => exact .char quote
  | string quote => exact .string quote
  | skip => exact .skip
  | _ => exact .finish rfl

theorem inStep_fresh (c : Char) : InStep (fresh.feed c) (fresh.feed c) := by
  rw [feed_fresh]
  have hstart := starts c
  generalize State.start c = m at hstart
  cases hstart with
  | bare hq => exact ⟨.bare hq, rfl⟩
  | comment => exact ⟨.comment, rfl⟩
  | char hc =>
    subst hc
    exact ⟨.charOpen, rfl⟩
  | string hc =>
    subst hc
    exact ⟨.string [], rfl⟩
  | finish ht => exact InStep.cons (x := (fresh, [])) (y := (fresh, [])) ht ⟨.idle, rfl⟩
  | skip => exact ⟨.idle, rfl⟩

/-- Two automata that release the same narrow token. -/
theorem inStep_release (ha : a.move c = .release t) (hb : b.move c = .release t) (ht : t.Narrow) :
    InStep (a.feed c) (b.feed c) := by
  rw [feed_release ha, feed_release hb]
  exact (inStep_fresh c).cons ht

theorem start_wide (h : IsWide c) : State.start c = .finish .unknown := by
  simp [State.start, isWordStart, isCarriageReturn, isLineFeed, isEndMark, endMark, h.isLetter, h.isUnderscore, h.isDigit,
    h.isOperatorSymbol, h.isBlank, h.beq]

theorem feed_fresh_wide (h : IsWide c) : fresh.feed c = (fresh, [.unknown]) :=
  feed_finish (start_wide h)

/-- Characters outside ASCII are unknown symbols, however many they are. -/
theorem run_fresh_wide {cs : List Char} (h : ∀ c ∈ cs, IsWide c) :
    (fresh.run cs).1 = fresh ∧ significant (fresh.run cs).2 = [] := by
  induction cs with
  | nil => exact ⟨rfl, rfl⟩
  | cons c cs ih =>
    obtain ⟨hc, hcs⟩ := List.forall_mem_cons.mp h
    rw [run, feed_fresh_wide hc]
    exact ih hcs

theorem inStep_idle (c : Char) : InStep (fresh.feed c) (fresh.run (widen c)) := by
  by_cases hwide : IsWide c
  · obtain ⟨hfresh, hnone⟩ := run_fresh_wide (widen_wide hwide).2
    rw [feed_fresh_wide hwide]
    refine ⟨?_, hnone⟩
    rw [hfresh]
    exact .idle
  · rw [widen_ascii hwide, run_singleton]
    exact inStep_fresh c

/-! ### With a token open that is neither quoted nor a comment -/

theorem narrow_ofWord (word : String) : (Token.ofWord word).Narrow := by
  unfold Token.ofWord
  split <;> rfl

/-- No token is closed with the text of a literal in quotes. -/
theorem narrow_closed {q : State} {text : List Char} (h : q.closed text = some t) : t.Narrow := by
  cases q with
  | idle => cases h
  | word =>
    cases h
    exact narrow_ofWord _
  | _ =>
    cases h
    rfl

/-- Such a token is extended or released. -/
theorem bare_move {q : State} (hq : q.Bare) (recent : List Char) (c : Char) :
    (∃ next, move ⟨q, recent⟩ c = .extend next ∧ next.Bare) ∨ ∃ t, move ⟨q, recent⟩ c = .release t ∧ t.Narrow := by
  have hm := State.moves recent c q
  rw [move]
  generalize q.move recent c = m at hm
  cases hm with
  | extend more =>
    refine .inl ⟨_, rfl, ?_⟩
    cases more with
    | word | operator | binary | hexadecimal | decimal | numeral | blank => trivial
    | _ => exact hq.elim
  | release token => exact .inr ⟨_, rfl, narrow_closed token⟩
  | _ => exact hq.elim

/-- The first character outside ASCII releases it, whatever that is. -/
theorem bare_move_wide {q : State} (hq : q.Bare) (recent : List Char) :
    ∃ t : Token, t.Narrow ∧ ∀ c, IsWide c → move ⟨q, recent⟩ c = .release t := by
  cases q with
  | word =>
    refine ⟨.ofWord (.ofList recent.reverse), narrow_ofWord _, fun c h => ?_⟩
    simp [move, State.move, h.isWordPart]
  | operator =>
    refine ⟨.operator (.ofList recent.reverse), rfl, fun c h => ?_⟩
    simp [move, State.move, h.isOperatorSymbol, isEndMark, endMark, h.beq]
  | zero =>
    refine ⟨.literal (.integer .decimal 0), rfl, fun c h => ?_⟩
    simp [move, State.move, isBinaryMark, isHexadecimalMark, h.beq, h.isDigit, h.isUnderscore]
  | numeral r =>
    refine ⟨.literal (.integer r (r.value recent.reverse)), rfl, fun c h => ?_⟩
    have hpart : State.isNumeralPart r c = false := by
      cases r <;> simp [State.isNumeralPart, h.isUnderscore, isBinaryDigit, h.beq, h.isDigit, h.isHexadecimalDigit]
    simp [move, State.move, hpart]
  | blank =>
    refine ⟨.blank, rfl, fun c h => ?_⟩
    simp [move, State.move, h.isBlank]
  | _ => exact hq.elim

theorem inStep_bare {q : State} (hq : q.Bare) (recent : List Char) (c : Char) :
    InStep (feed ⟨q, recent⟩ c) (run ⟨q, recent⟩ (widen c)) := by
  by_cases hwide : IsWide c
  · obtain ⟨⟨d, e, ds, hbytes⟩, hall⟩ := widen_wide hwide
    obtain ⟨t, ht, hrelease⟩ := bare_move_wide hq recent
    have hunknown := inStep_idle c
    rw [hbytes] at hall hunknown ⊢
    rw [feed_release (hrelease c hwide), run_release (hrelease d (hall d List.mem_cons_self))]
    exact hunknown.cons ht
  · rw [widen_ascii hwide, run_singleton]
    rcases bare_move hq recent c with ⟨next, hm, hnext⟩ | ⟨t, hm, ht⟩
    · rw [feed_extend hm]
      exact ⟨.bare hnext, rfl⟩
    · exact inStep_release hm hm ht

/-! ### In a comment -/

theorem comment_more (hline : isLineEnd c = false) (recent : List Char) :
    move ⟨.comment, recent⟩ c = .extend .comment := by
  simp [move, State.move, hline]

theorem inStep_comment (recent recent' : List Char) (c : Char) :
    InStep (feed ⟨.comment, recent⟩ c) (run ⟨.comment, recent'⟩ (widen c)) := by
  by_cases hwide : IsWide c
  · rw [feed_extend (comment_more hwide.isLineEnd recent),
      run_extend fun d hd => comment_more ((widen_wide hwide).2 d hd).isLineEnd]
    exact ⟨.comment, rfl⟩
  · rw [widen_ascii hwide, run_singleton]
    cases hline : isLineEnd c with
    | true =>
      have hstop : ∀ recent, move ⟨.comment, recent⟩ c = .release .comment := by
        intro recent
        simp [move, State.move, hline]
      exact inStep_release (hstop _) (hstop _) rfl
    | false =>
      rw [feed_extend (comment_more hline _), feed_extend (comment_more hline _)]
      exact ⟨.comment, rfl⟩

/-! ### In a character literal -/

section Char

variable {recent recent' : List Char}

theorem run_charOverfull_wide {cs : List Char} (h : ∀ c ∈ cs, IsWide c) (recent : List Char) :
    run ⟨.charOverfull, recent⟩ cs = (⟨.charOverfull, cs.reverse ++ recent⟩, []) :=
  run_extend (fun c hc _ => charOverfull_more ((h c hc).ne (by decide)) (h c hc).isLineEnd) recent

/-- One character more is one too many. -/
theorem run_charFilled_wide {d : Char} {ds : List Char} (h : ∀ c ∈ d :: ds, IsWide c) (recent : List Char) :
    run ⟨.charFilled, recent⟩ (d :: ds) = (⟨.charOverfull, ds.reverse ++ d :: recent⟩, []) := by
  obtain ⟨hd, hds⟩ := List.forall_mem_cons.mp h
  rw [run, feed_extend (charFilled_more (hd.ne (by decide)) hd.isLineEnd)]
  simp only [run_charOverfull_wide hds, List.nil_append]

theorem inStep_charOverfull (recent recent' : List Char) (c : Char) :
    InStep (feed ⟨.charOverfull, recent⟩ c) (run ⟨.charOverfull, recent'⟩ (widen c)) := by
  by_cases hwide : IsWide c
  · rw [feed_extend (charOverfull_more (hwide.ne (by decide)) hwide.isLineEnd), run_charOverfull_wide (widen_wide hwide).2]
    exact ⟨.charOverfull, rfl⟩
  rw [widen_ascii hwide, run_singleton]
  by_cases hquote : c = '\''
  · subst hquote
    exact ⟨.idle, rfl⟩
  cases hline : isLineEnd c with
  | true => exact inStep_release (char_lineEnd (by simp) hline _) (char_lineEnd (by simp) hline _) rfl
  | false =>
    rw [feed_extend (charOverfull_more hquote hline), feed_extend (charOverfull_more hquote hline)]
    exact ⟨.charOverfull, rfl⟩

/-- The bytes of the character have gone over already. -/
theorem inStep_charWide {v : Char} (hv : IsWide v) (recent : List Char) (c : Char) :
    InStep (feed ⟨.charFilled, [v, '\'']⟩ c) (run ⟨.charOverfull, recent⟩ (widen c)) := by
  by_cases hquote : c = '\''
  · subst hquote
    refine ⟨.idle, ?_⟩
    show [Token.literal .badChar] = [Token.mapLiteral Literal.widened (.literal (.char v))]
    rw [Token.mapLiteral, Literal.widened, if_pos hv]
  · cases hline : isLineEnd c with
    | true =>
      have hascii : ¬IsWide c := fun h => by rw [h.isLineEnd] at hline; cases hline
      rw [widen_ascii hascii, run_singleton]
      exact inStep_release (char_lineEnd (by simp) hline _) (char_lineEnd (by simp) hline _) rfl
    | false =>
      have hsame : feed ⟨.charFilled, [v, '\'']⟩ c = feed ⟨.charOverfull, [v, '\'']⟩ c := by
        rw [feed_extend (charFilled_more hquote hline), feed_extend (charOverfull_more hquote hline)]
      rw [hsame]
      exact inStep_charOverfull _ _ _

theorem inStep_charFilled {v : Char} (hv : ¬IsWide v) (c : Char) :
    InStep (feed ⟨.charFilled, [v, '\'']⟩ c) (run ⟨.charFilled, [v, '\'']⟩ (widen c)) := by
  by_cases hwide : IsWide c
  · obtain ⟨⟨d, e, ds, hbytes⟩, hall⟩ := widen_wide hwide
    rw [hbytes] at hall ⊢
    rw [feed_extend (charFilled_more (hwide.ne (by decide)) hwide.isLineEnd), run_charFilled_wide hall]
    exact ⟨.charOverfull, rfl⟩
  rw [widen_ascii hwide, run_singleton]
  by_cases hquote : c = '\''
  · subst hquote
    refine ⟨.idle, ?_⟩
    show [Token.literal (.char v)] = [Token.mapLiteral Literal.widened (.literal (.char v))]
    rw [Token.mapLiteral, Literal.widened, if_neg hv]
  cases hline : isLineEnd c with
  | true => exact inStep_release (char_lineEnd (by simp) hline _) (char_lineEnd (by simp) hline _) rfl
  | false =>
    rw [feed_extend (charFilled_more hquote hline)]
    exact ⟨.charOverfull, rfl⟩

theorem inStep_charOpen (c : Char) :
    InStep (feed ⟨.charOpen, ['\'']⟩ c) (run ⟨.charOpen, ['\'']⟩ (widen c)) := by
  by_cases hwide : IsWide c
  · obtain ⟨⟨d, e, ds, hbytes⟩, hall⟩ := widen_wide hwide
    rw [hbytes] at hall ⊢
    obtain ⟨hd, hds⟩ := List.forall_mem_cons.mp hall
    rw [feed_extend (charOpen_more (hwide.ne (by decide)) hwide.isLineEnd (hwide.ne (by decide))), run,
      feed_extend (charOpen_more (hd.ne (by decide)) hd.isLineEnd (hd.ne (by decide)))]
    simp only [run_charFilled_wide hds, List.nil_append]
    exact ⟨.charWide hwide, rfl⟩
  rw [widen_ascii hwide, run_singleton]
  by_cases hquote : c = '\''
  · subst hquote
    exact ⟨.idle, rfl⟩
  by_cases hslash : c = '\\'
  · subst hslash
    exact ⟨.charEscape, rfl⟩
  cases hline : isLineEnd c with
  | true => exact inStep_release (char_lineEnd (by simp) hline _) (char_lineEnd (by simp) hline _) rfl
  | false =>
    rw [feed_extend (charOpen_more hquote hline hslash)]
    exact ⟨.charFilled hwide, rfl⟩

theorem not_isWide_of_resolveEscape {v : Char} (h : resolveEscape c = some v) : ¬IsWide v := by
  unfold resolveEscape at h
  split at h <;> cases h <;> decide

theorem inStep_charEscape (c : Char) :
    InStep (feed ⟨.charEscape, ['\\', '\'']⟩ c) (run ⟨.charEscape, ['\\', '\'']⟩ (widen c)) := by
  by_cases hwide : IsWide c
  · obtain ⟨⟨d, e, ds, hbytes⟩, hall⟩ := widen_wide hwide
    rw [hbytes] at hall ⊢
    obtain ⟨hd, hds⟩ := List.forall_mem_cons.mp hall
    rw [feed_extend (charEscape_more hwide.resolveEscape hwide.isLineEnd), run,
      feed_extend (charEscape_more hd.resolveEscape hd.isLineEnd)]
    simp only [run_charOverfull_wide hds, List.nil_append]
    exact ⟨.charOverfull, rfl⟩
  rw [widen_ascii hwide, run_singleton]
  cases hv : resolveEscape c with
  | some v =>
    rw [feed_resolve (charEscape_resolve hv)]
    exact ⟨.charFilled (not_isWide_of_resolveEscape hv), rfl⟩
  | none =>
    cases hline : isLineEnd c with
    | true => exact inStep_release (char_lineEnd (by simp) hline _) (char_lineEnd (by simp) hline _) rfl
    | false =>
      rw [feed_extend (charEscape_more hv hline)]
      exact ⟨.charOverfull, rfl⟩

end Char

/-! ### In a string -/

section Strings

variable {body : List Char}

/-- Characters outside ASCII are more of the string. -/
theorem run_string_wide {cs : List Char} (h : ∀ c ∈ cs, IsWide c) (body : List Char) :
    (openString body).run cs = (openString (body ++ cs), []) := by
  rw [← openString_append]
  exact run_extend (fun c hc _ => string_more ((h c hc).ne (by decide)) (h c hc).isLineEnd ((h c hc).ne (by decide))) _

theorem alongside_append {cs ds : List Char} (h : cs.flatMap widen = ds) (body : List Char) :
    Alongside (openString (body ++ cs)) (openString (body.flatMap widen ++ ds)) := by
  rw [← h, ← List.flatMap_append]
  exact .string (body ++ cs)

theorem inStep_string (body : List Char) (c : Char) :
    InStep ((openString body).feed c) ((openString (body.flatMap widen)).run (widen c)) := by
  by_cases hwide : IsWide c
  · have hone : ∀ d ∈ [c], IsWide d := List.forall_mem_singleton.mpr hwide
    rw [← run_singleton, run_string_wide hone, run_string_wide (widen_wide hwide).2]
    exact ⟨alongside_append (flatMap_widen_singleton c) body, rfl⟩
  rw [widen_ascii hwide, run_singleton]
  by_cases hslash : c = '\\'
  · subst hslash
    exact ⟨.stringEscape body, rfl⟩
  by_cases hquote : c = '"'
  · subst hquote
    rw [feed_finish (openString_close body), feed_finish (openString_close _)]
    refine ⟨.idle, ?_⟩
    show [Token.literal _] = [Token.mapLiteral Literal.widened (.literal _)]
    rw [Token.mapLiteral, Literal.widened_string]
  cases hline : isLineEnd c with
  | true =>
    exact inStep_release (string_lineEnd (.inl rfl) hline _) (string_lineEnd (.inl rfl) hline _) rfl
  | false =>
    rw [feed_openString hslash hline hquote, feed_openString hslash hline hquote]
    exact ⟨alongside_append (flatMap_widen_cons hwide []) body, rfl⟩

theorem inStep_stringEscape (body : List Char) (c : Char) :
    InStep (feed ⟨.stringEscape, '\\' :: (openString body).recent⟩ c)
      (run ⟨.stringEscape, '\\' :: (openString (body.flatMap widen)).recent⟩ (widen c)) := by
  have hslash : ¬IsWide '\\' := by decide
  by_cases hwide : IsWide c
  · have hbody : ['\\', c].flatMap widen = '\\' :: widen c := by
      rw [flatMap_widen_cons hslash, flatMap_widen_singleton]
    obtain ⟨⟨d, e, ds, hbytes⟩, hall⟩ := widen_wide hwide
    rw [hbytes] at hbody hall ⊢
    obtain ⟨hd, hds⟩ := List.forall_mem_cons.mp hall
    rw [feed_stringEscape_more hwide.resolveEscape hwide.isLineEnd, run,
      feed_stringEscape_more hd.resolveEscape hd.isLineEnd]
    simp only [run_string_wide hds, List.nil_append, List.append_assoc]
    exact ⟨alongside_append hbody body, rfl⟩
  rw [widen_ascii hwide, run_singleton]
  cases hv : resolveEscape c with
  | some v =>
    rw [feed_stringEscape_resolve hv, feed_stringEscape_resolve hv]
    exact ⟨alongside_append (flatMap_widen_cons (not_isWide_of_resolveEscape hv) []) body, rfl⟩
  | none =>
    cases hline : isLineEnd c with
    | true =>
      exact inStep_release (string_lineEnd (.inr rfl) hline _) (string_lineEnd (.inr rfl) hline _) rfl
    | false =>
      rw [feed_stringEscape_more hv hline, feed_stringEscape_more hv hline]
      have hbody : ['\\', c].flatMap widen = ['\\', c] := by rw [flatMap_widen_cons hslash, flatMap_widen_cons hwide]; rfl
      exact ⟨alongside_append hbody body, rfl⟩

end Strings

/-! ### In any state -/

/-- One character and its bytes. -/
theorem alongside_step (h : Alongside a b) (c : Char) : InStep (a.feed c) (b.run (widen c)) := by
  cases h with
  | idle => exact inStep_idle c
  | bare hq => exact inStep_bare hq _ c
  | charOpen => exact inStep_charOpen c
  | charEscape => exact inStep_charEscape c
  | charFilled hv => exact inStep_charFilled hv c
  | charWide hv => exact inStep_charWide hv _ c
  | charOverfull => exact inStep_charOverfull _ _ c
  | string body => exact inStep_string body c
  | stringEscape body => exact inStep_stringEscape body c
  | comment => exact inStep_comment _ _ c

end Steps

/-! ## Runs -/

/-- A text and its bytes. -/
theorem alongside_run {a b : Automaton} (h : Alongside a b) (s : List Char) :
    InStep (a.run s) (b.run (s.flatMap widen)) := by
  induction s generalizing a b with
  | nil => exact ⟨h, rfl⟩
  | cons c cs ih =>
    have hstep := alongside_step h c
    rw [← run_singleton] at hstep
    exact hstep.append (ih hstep.1)

end Automaton

/-- The text is read from its bytes as it is read itself, up to the literals. -/
theorem significant_lex_widen (s : List Char) :
    significant (lex (s.flatMap widen)) = (significant (lex s)).map (Token.mapLiteral Literal.widened) := by
  have hend : (s ++ [endMark]).flatMap widen = s.flatMap widen ++ [endMark] := by
    rw [List.flatMap_append, flatMap_widen_singleton, widen_ascii (by decide)]
  rw [lex, tokensOf, ← hend]
  exact (Automaton.alongside_run .idle (s ++ [endMark])).2

/-! ## Nothing wide in quotes -/

/-- A string or a character literal is open. -/
def State.isQuoted : State → Bool
  | charOpen | charFilled | charEscape | charOverfull | string | stringEscape => true
  | _ => false

/-- No character outside ASCII is read with a string or a character literal open. -/
def NarrowQuotes (s : List Char) : Prop :=
  ∀ i (h : i < s.length), IsWide s[i] → (Automaton.fresh.run (s.take i)).1.state.isQuoted = false

instance (s : List Char) : Decidable (NarrowQuotes s) :=
  Nat.decidableBallLT s.length _

theorem NarrowQuotes.concat {s : List Char} {c : Char} (h : NarrowQuotes (s ++ [c])) :
    NarrowQuotes s ∧ (IsWide c → (Automaton.fresh.run s).1.state.isQuoted = false) := by
  refine ⟨fun i hi hwide => ?_, fun hwide => ?_⟩
  · have hstep := h i (by rw [List.length_append]; omega)
    rw [List.getElem_append_left hi, List.take_append_of_le_length (Nat.le_of_lt hi)] at hstep
    exact hstep hwide
  · have hstep := h s.length (by rw [List.length_append]; exact Nat.lt_succ_self _)
    rw [List.getElem_concat_length rfl, List.take_left] at hstep
    exact hstep hwide

namespace Automaton

section Narrow

variable {a b : Automaton} {c : Char} {s : List Char}

theorem inStep_self_wide (h : Alongside a b) (hwide : IsWide c) (hopen : a.state.isQuoted = false) :
    InStep (a.feed c) (a.feed c) := by
  cases h with
  | idle => exact inStep_fresh c
  | @bare q recent hq =>
    obtain ⟨t, ht, hrelease⟩ := bare_move_wide hq recent
    exact inStep_release (hrelease c hwide) (hrelease c hwide) ht
  | @comment recent _ =>
    rw [feed_extend (comment_more hwide.isLineEnd recent)]
    exact ⟨.comment, rfl⟩
  | _ => cases hopen

/-- An automaton alongside itself has nothing outside ASCII in the literal that is open, and stays so. -/
theorem inStep_self (h : Alongside a a) (hc : IsWide c → a.state.isQuoted = false) : InStep (a.feed c) (a.feed c) := by
  by_cases hwide : IsWide c
  · exact inStep_self_wide h hwide (hc hwide)
  · have hstep := alongside_step h c
    rwa [widen_ascii hwide, run_singleton] at hstep

theorem inStep_run_self (h : NarrowQuotes s) : InStep (fresh.run s) (fresh.run s) := by
  induction s using List.reverseRecOn with
  | nil => exact ⟨.idle, rfl⟩
  | append_singleton s c ih =>
    obtain ⟨hs, hc⟩ := h.concat
    have hstep := inStep_self (ih hs).1 hc
    rw [← run_singleton] at hstep
    exact (ih hs).append hstep

end Narrow

end Automaton

/-- Then the literals are the same too. -/
theorem significant_lex_widen_of_narrowQuotes {s : List Char} (h : NarrowQuotes s) :
    significant (lex (s.flatMap widen)) = significant (lex s) := by
  have hrun := Automaton.inStep_run_self h
  have hend : Automaton.InStep (Automaton.fresh.run (s ++ [endMark])) (Automaton.fresh.run (s ++ [endMark])) := by
    have hstep := Automaton.inStep_self (c := endMark) hrun.1 (fun hwide => absurd hwide (by decide))
    rw [← Automaton.run_singleton] at hstep
    exact hrun.append hstep
  rw [significant_lex_widen]
  exact hend.2.symm

end Parlance
