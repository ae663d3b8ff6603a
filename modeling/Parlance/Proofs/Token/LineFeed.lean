import Parlance.Proofs.Token.MaximalMunch

/-!
# A line feed closes what is open

Whatever the automaton has open, a line feed releases it as one token, becomes a token of its own and leaves nothing open
(`feed_lineFeed`). The end mark does the same, except behind a run of operator symbols (`feed_endMark`). So the lines of a
text are read one by one: what stands behind a line feed is read as a text of its own (`lex_lineFeed`), there are as many
line breaks as line feeds (`count_newLine_run`), and a token that takes the rest of its line along stands at the end of it
(`closesLines_lex`).
-/

namespace Parlance

/-- The token runs to the end of its line, whatever the characters there are. -/
def Token.takesLine : Token → Bool
  | literal .badString | comment => true
  | _ => false

namespace Automaton

/-! ## What a character completes -/

section Moves

variable {q : State} {recent : List Char} {c : Char} {t : Token}

/-- With no token open, only a line feed completes a line break, and no character takes its line along. -/
theorem start_ne_finish (h : t.takesLine = true ∨ t = .newLine ∧ c ≠ '\n') : State.start c ≠ .finish t := by
  intro hm
  cases State.begins_of_start hm with
  | newLine line =>
    rcases h with h | ⟨-, hc⟩
    · cases h
    · exact hc line
  | _ => rcases h with h | ⟨h, -⟩ <;> cases h

theorem move_ne_finish (h : t.takesLine = true ∨ t = .newLine ∧ c ≠ '\n') : q.move recent c ≠ .finish t := by
  intro hm
  cases State.moves_of_move hm with
  | start first => exact start_ne_finish h hm
  | finishChar =>
    cases hv : recent.reverse[1]? <;> rw [hv] at h <;> rcases h with h | ⟨h, -⟩ <;> cases h
  | _ => rcases h with h | ⟨h, -⟩ <;> cases h

/-- A released token breaks no line, and one that takes its line along is released by the end of that line. -/
theorem move_release (h : q.move recent c = .release t) : t ≠ .newLine ∧ (t.takesLine = true → isLineEnd c = true) := by
  cases State.moves_of_move h with
  | start first => cases first
  | release token reason =>
    cases q with
    | idle => cases token
    | word =>
      cases token
      unfold Token.ofWord
      split <;> exact ⟨nofun, nofun⟩
    | string | stringEscape | comment =>
      cases token
      exact ⟨nofun, fun _ => reason.resolve_left id⟩
    | _ =>
      cases token
      exact ⟨nofun, nofun⟩

/-- What is completed by one character: nothing, a token that it finishes, or a token that it releases and then what it
completes with no token open. -/
theorem tokens_feed {P : List Token → Prop} (nothing : P [])
    (finish : ∀ {q : State} {recent : List Char} {t : Token}, q.move recent c = .finish t → P [t])
    (release : ∀ {q : State} {recent : List Char} {t : Token}, q.move recent c = .release t → P (fresh.feed c).2 →
      P (t :: (fresh.feed c).2)) (a : Automaton) : P (a.feed c).2 := by
  have hfresh : P (fresh.feed c).2 := by
    rw [feed_fresh]
    cases hs : State.start c with
    | finish t =>
      have hidle : State.idle.move [] c = .finish t := hs
      exact finish hidle
    | release t => exact absurd hs (start_ne_release c t)
    | _ => exact nothing
  cases h : a.move c with
  | finish t =>
    rw [feed_finish h]
    exact finish h
  | release t =>
    rw [feed_release h]
    exact release h hfresh
  | extend next => rwa [feed_extend h]
  | resolve v next => rwa [feed_resolve h]
  | skip => rwa [feed_skip h]

/-- A completed token is finished by the character, released by it, or finished by it alone behind a released one. -/
theorem mem_feed {a : Automaton} (h : t ∈ (a.feed c).2) :
    a.move c = .finish t ∨ a.move c = .release t ∨ State.start c = .finish t := by
  cases hm : a.move c with
  | finish u =>
    rw [feed_finish hm] at h
    rw [List.mem_singleton.mp h]
    exact .inl rfl
  | release u =>
    rw [feed_release hm, feed_fresh] at h
    rcases List.mem_cons.mp h with rfl | h
    · exact .inr (.inl rfl)
    · cases hs : State.start c with
      | finish v =>
        rw [hs] at h
        rw [List.mem_singleton.mp h]
        exact .inr (.inr rfl)
      | release v => exact absurd hs (start_ne_release c v)
      | _ =>
        rw [hs] at h
        cases h
  | extend next =>
    rw [feed_extend hm] at h
    cases h
  | resolve v next =>
    rw [feed_resolve hm] at h
    cases h
  | skip =>
    rw [feed_skip hm] at h
    cases h

/-- Every token of a run is completed by one of its characters, where the characters in front of it lead. -/
theorem mem_run {a : Automaton} {text : List Char} (h : t ∈ (a.run text).2) :
    ∃ front c back, text = front ++ c :: back ∧ t ∈ ((a.run front).1.feed c).2 := by
  induction text generalizing a with
  | nil => cases h
  | cons c cs ih =>
    rcases List.mem_append.mp h with h | h
    · exact ⟨[], c, cs, rfl, h⟩
    · obtain ⟨front, d, back, rfl, ht⟩ := ih h
      exact ⟨c :: front, d, back, rfl, ht⟩

end Moves

/-! ## One line feed -/

/-- The token that a line feed releases, if one is open. -/
def closing (a : Automaton) : Option Token :=
  match a.move '\n' with
  | .release t => some t
  | _ => none

theorem closing_ne_newLine (a : Automaton) : a.closing ≠ some .newLine := by
  unfold closing
  split
  · rename_i t h
    exact fun ht => (move_release h).1 (Option.some.inj ht)
  · nofun

/-- A line feed goes on with no token. -/
theorem move_lineFeed (a : Automaton) : a.move '\n' = a.closing.elim (.finish .newLine) .release := by
  obtain ⟨q, recent⟩ := a
  cases q with
  | numeral r => cases r <;> rfl
  | _ => rfl

/-- **Line feed**: at most one token is closed, then the line break follows, and nothing is open. -/
theorem feed_lineFeed (a : Automaton) : a.feed '\n' = (fresh, a.closing.toList ++ [Token.newLine]) := by
  have h := move_lineFeed a
  cases hc : a.closing with
  | none =>
    rw [hc] at h
    rw [feed_finish h]
    rfl
  | some t =>
    rw [hc] at h
    rw [feed_release h]
    rfl

/-- The end mark closes what a line feed closes, except a run of operator symbols. -/
theorem feed_endMark {a : Automaton} (h : a.state ≠ .operator) :
    a.feed endMark = (fresh, a.closing.toList ++ [Token.endOfInput]) := by
  obtain ⟨q, recent⟩ := a
  cases q with
  | operator => exact absurd rfl h
  | numeral r => cases r <;> rfl
  | _ => rfl

/-! ## Runs -/

theorem run_lineFeed (a : Automaton) (text : List Char) : (a.run (text ++ ['\n'])).1 = fresh := by
  rw [run_append, run_singleton, feed_lineFeed]

theorem newLine_notMem_feed {c : Char} (a : Automaton) (hc : c ≠ '\n') : .newLine ∉ (a.feed c).2 := by
  refine tokens_feed (P := (Token.newLine ∉ ·)) List.not_mem_nil (fun h => ?_) (fun h hbehind => ?_) a
  · exact fun hm => move_ne_finish (.inr ⟨(List.mem_singleton.mp hm).symm, hc⟩) h
  · exact List.not_mem_cons_of_ne_of_not_mem (move_release h).1.symm hbehind

/-- There are as many line breaks as line feeds. -/
theorem count_newLine_run (a : Automaton) (text : List Char) : (a.run text).2.count .newLine = text.count '\n' := by
  induction text generalizing a with
  | nil => rfl
  | cons c cs ih =>
    show ((a.feed c).2 ++ ((a.feed c).1.run cs).2).count .newLine = _
    rw [List.count_append, ih]
    by_cases hc : c = '\n'
    · subst hc
      have hclosing : a.closing.toList.count .newLine = 0 := by
        rw [List.count_eq_zero, Option.mem_toList]
        exact closing_ne_newLine a
      rw [feed_lineFeed, List.count_append, hclosing, List.count_cons_self]
      simp
      omega
    · rw [List.count_eq_zero_of_not_mem (newLine_notMem_feed a hc), List.count_cons_of_ne hc, Nat.zero_add]

end Automaton

/-! ## Tokens that take their line along -/

/-- A line break or the end token stands right behind every token that takes the rest of its line along. -/
def ClosesLines : List Token → Prop
  | [] => True
  | t :: ts => (t.takesLine = true → ts.head? = some .newLine ∨ ts.head? = some .endOfInput) ∧ ClosesLines ts

namespace ClosesLines

variable {us vs : List Token}

theorem append (hu : ClosesLines us) (hv : ClosesLines vs) : ClosesLines (us ++ vs) := by
  induction us with
  | nil => exact hv
  | cons t ts ih =>
    refine ⟨fun ht => ?_, ih hu.2⟩
    cases ts with
    | nil => rcases hu.1 ht with h | h <;> cases h
    | cons u us => exact hu.1 ht

theorem right (h : ClosesLines (us ++ vs)) : ClosesLines vs := by
  induction us with
  | nil => exact h
  | cons t ts ih => exact ih h.2

/-- Among tokens without line breaks, only the last may take its line along. -/
theorem notMem_dropLast (h : ClosesLines (us ++ vs)) (hline : .newLine ∉ us) (hend : .endOfInput ∉ us) {t : Token}
    (ht : t.takesLine = true) : t ∉ us.dropLast := by
  induction us with
  | nil => exact nofun
  | cons u us ih =>
    cases us with
    | nil => exact nofun
    | cons v us =>
      obtain ⟨hu, hus⟩ := h
      have hbehind := ih hus (List.not_mem_of_not_mem_cons hline) (List.not_mem_of_not_mem_cons hend)
      intro hm
      rcases List.mem_cons.mp hm with rfl | hm
      · rcases hu ht with hv | hv
        · exact hline (by simp [← Option.some.inj hv])
        · exact hend (by simp [← Option.some.inj hv])
      · exact hbehind hm

/-- None does, where they are followed by another token that breaks no line. -/
theorem notMem {t u : Token} (h : ClosesLines (us ++ u :: vs)) (hline : .newLine ∉ us) (hend : .endOfInput ∉ us)
    (hu : u ≠ .newLine ∧ u ≠ .endOfInput) (ht : t.takesLine = true) : t ∉ us := by
  have hassoc : us ++ u :: vs = (us ++ [u]) ++ vs := by simp
  have hline' : Token.newLine ∉ us ++ [u] := by simp [hline, hu.1.symm]
  have hend' : Token.endOfInput ∉ us ++ [u] := by simp [hend, hu.2.symm]
  have hlast := (hassoc ▸ h).notMem_dropLast hline' hend' ht
  rwa [List.dropLast_concat] at hlast

end ClosesLines

namespace Automaton

theorem closesLines_feed (a : Automaton) (c : Char) : ClosesLines (a.feed c).2 := by
  refine tokens_feed (P := ClosesLines) trivial (fun h => ?_) (fun h hbehind => ?_) a
  · exact ⟨fun ht => absurd h (move_ne_finish (.inl ht)), trivial⟩
  · refine ⟨fun ht => ?_, hbehind⟩
    rcases eq_of_isLineEnd ((move_release h).2 ht) with rfl | rfl
    · exact .inl rfl
    · exact .inr rfl

theorem closesLines_run (a : Automaton) (text : List Char) : ClosesLines (a.run text).2 := by
  induction text generalizing a with
  | nil => trivial
  | cons c cs ih => exact (closesLines_feed a c).append (ih _)

end Automaton

/-! ## Whole texts -/

/-- Behind a line feed, a text is read as from its beginning. -/
theorem lex_append_of_fresh {s : List Char} (h : (Automaton.fresh.run s).1 = .fresh) (t : List Char) :
    lex (s ++ t) = tokensOf s ++ lex t := by
  rw [lex, List.append_assoc, tokensOf, Automaton.run_append, h]
  rfl

theorem lex_lineFeed (s t : List Char) : lex (s ++ '\n' :: t) = tokensOf (s ++ ['\n']) ++ lex t := by
  rw [List.append_cons]
  exact lex_append_of_fresh (Automaton.run_lineFeed _ s) t

theorem closesLines_lex (text : List Char) : ClosesLines (lex text) :=
  Automaton.closesLines_run _ _

/-- **Line feeds synchronise.** Whatever is open, a line feed closes it with one token at most, breaks the line and leaves
nothing open. So a text is read line by line, with as many line breaks as line feeds; and a token that takes the rest of its
line along, an unclosed string or a comment, has the end of the line or of the text right behind it. -/
theorem lineFeed_synchronises :
    (∀ a : Automaton, ∃ closing : Option Token, closing ≠ some .newLine ∧
      a.feed '\n' = (.fresh, closing.toList ++ [Token.newLine])) ∧
    (∀ s t : List Char, lex (s ++ '\n' :: t) = tokensOf (s ++ ['\n']) ++ lex t) ∧
    (∀ text : List Char, (lex text).count .newLine = text.count '\n') ∧
    ∀ text before t after, lex text = before ++ t :: after → t = .literal .badString ∨ t = .comment →
      after.head? = some .newLine ∨ after.head? = some .endOfInput := by
  refine ⟨fun a => ⟨a.closing, a.closing_ne_newLine, a.feed_lineFeed⟩, lex_lineFeed, fun text => ?_,
    fun text before t after htext ht => ?_⟩
  · rw [lex, tokensOf, Automaton.count_newLine_run, List.count_append]
    rfl
  · have hlines := closesLines_lex text
    rw [htext] at hlines
    refine hlines.right.1 ?_
    rcases ht with rfl | rfl <;> rfl

/-- An escape at the end of a line, and on the next one a string that the end mark cuts off, behind an operator. -/
theorem lineFeed_synchronises_unclosed :
    lex "\"a\\\n+\x00\n\"b\x00'".toList = [.literal .badString, .newLine, .operator "+\x00", .newLine] ++
      .literal .badString :: [.endOfInput, .literal .badChar, .endOfInput] ∧
    ([.endOfInput, .literal .badChar, .endOfInput] : List Token).head? = some .endOfInput := by
  refine ⟨rfl, ?_⟩
  have hbehind := lineFeed_synchronises.2.2.2 "\"a\\\n+\x00\n\"b\x00'".toList
    [.literal .badString, .newLine, .operator "+\x00", .newLine] (.literal .badString)
    [.endOfInput, .literal .badChar, .endOfInput] rfl (.inl rfl)
  rcases hbehind with h | h
  · cases h
  · exact h

end Parlance
