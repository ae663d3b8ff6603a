import Parlance.Proofs.Grammar.Rest
import Parlance.Proofs.Grammar.Simulation
import Parlance.Proofs.Token.Line

/-!
# Layout and comments are not seen

A file does not see how many line breaks stand where there are some (`parsed_squeeze`, by the simulation `squeezing`), nor
whether its last line ends in one (`entities_lineFeed`). The second holds although a run of operator symbols that ends the
text takes the end token away with it: no entity ends in an operator, and none sees that one is missing behind it.

So lines can be indented, followed by blanks and comments, and set apart by lines of nothing else, and the file stays the
same (`ofText_relaid`).
-/

namespace Parlance

open Grammar Cursor

/-! ## Runs of line breaks -/

/-- The tokens with one line break in place of each run of them. -/
def squeeze : List Token → List Token
  | [] => []
  | t :: ts => if t = .newLine ∧ (squeeze ts).head? = some .newLine then squeeze ts else t :: squeeze ts

section Squeeze

variable {t : Token} {ts us vs : List Token}

theorem squeeze_cons (t : Token) (ts : List Token) : squeeze (t :: ts) =
    if t = .newLine ∧ (squeeze ts).head? = some .newLine then squeeze ts else t :: squeeze ts := rfl

theorem head?_squeeze : ∀ ts : List Token, (squeeze ts).head? = ts.head?
  | [] => rfl
  | t :: ts => by
    rw [squeeze_cons]
    split
    · rename_i h
      rw [h.1, h.2]
      rfl
    · rfl

theorem squeeze_cons_of_ne (ht : t ≠ .newLine) (ts : List Token) : squeeze (t :: ts) = t :: squeeze ts := by
  rw [squeeze_cons, if_neg fun h => ht h.1]

theorem squeeze_newLines (ts : List Token) : squeeze (.newLine :: .newLine :: ts) = squeeze (.newLine :: ts) := by
  rw [squeeze_cons, if_pos ⟨rfl, by rw [head?_squeeze]; rfl⟩]

theorem squeeze_congr (ts : List Token) (h : squeeze us = squeeze vs) : squeeze (ts ++ us) = squeeze (ts ++ vs) := by
  induction ts with
  | nil => exact h
  | cons t ts ih => rw [List.cons_append, List.cons_append, squeeze_cons, squeeze_cons, ih]

/-- Two lists with the same runs start alike, and where that is no line break they go on alike. -/
theorem squeeze_cases (h : squeeze us = squeeze vs) :
    (us = [] ∧ vs = []) ∨ ∃ t us' vs', us = t :: us' ∧ vs = t :: vs' := by
  have hhead : us.head? = vs.head? := by rw [← head?_squeeze, h, head?_squeeze]
  cases us with
  | nil =>
    cases vs with
    | nil => exact .inl ⟨rfl, rfl⟩
    | cons => cases hhead
  | cons t us =>
    cases vs with
    | nil => cases hhead
    | cons u vs =>
      cases hhead
      exact .inr ⟨t, us, vs, rfl, rfl⟩

/-- The tokens behind the line breaks. -/
def behindLines (ts : List Token) : List Token := ts.dropWhile (· = .newLine)

theorem behindLines_cons_of_ne (ht : t ≠ .newLine) (ts : List Token) : behindLines (t :: ts) = t :: ts :=
  List.dropWhile_cons_of_neg (by simpa using ht)

theorem squeeze_behindLines (ts : List Token) : squeeze (behindLines ts) = behindLines (squeeze ts) := by
  induction ts with
  | nil => rfl
  | cons t ts ih =>
    by_cases ht : t = .newLine
    · subst ht
      have hdrop : behindLines (.newLine :: ts) = behindLines ts := rfl
      rw [hdrop, ih, squeeze_cons]
      split <;> rfl
    · rw [behindLines_cons_of_ne ht, squeeze_cons_of_ne ht, behindLines_cons_of_ne ht]

theorem overNewLines_behindLines (current : Option Token) (ts : List Token) :
    (behindLines ts = [] → (overNewLines current ts).1 = false) ∧
      ∀ t us, behindLines ts = t :: us → overNewLines current ts = (true, ⟨some t, us⟩) := by
  fun_induction overNewLines current ts with
  | case1 => exact ⟨fun _ => rfl, fun _ _ h => by cases h⟩
  | case2 _ _ ih => exact ih
  | case3 _ t ts hne =>
    rw [behindLines_cons_of_ne hne]
    refine ⟨fun h => (by cases h), fun u us h => ?_⟩
    cases h
    rfl

end Squeeze

/-- Parses of two lists with the same runs of line breaks go in step. -/
def squeezing : Simulation where
  payload := id
  related c d := ∃ t us vs, c = ⟨some t, us⟩ ∧ d = ⟨some t, vs⟩ ∧ squeeze (t :: us) = squeeze (t :: vs)
  current := by
    rintro _ _ ⟨t, us, vs, rfl, rfl, -⟩
    cases t <;> rfl
  advance := by
    rintro _ _ ⟨t, us, vs, rfl, rfl, h⟩ ht
    have htail : squeeze us = squeeze vs := by
      have hne : t ≠ .newLine := fun hsame => ht (congrArg some hsame)
      rw [squeeze_cons_of_ne hne, squeeze_cons_of_ne hne] at h
      exact (List.cons.inj h).2
    rcases squeeze_cases htail with ⟨rfl, rfl⟩ | ⟨u, us, vs, rfl, rfl⟩
    · exact .inl ⟨rfl, rfl⟩
    · exact .inr ⟨_, _, rfl, rfl, u, us, vs, rfl, rfl, htail⟩
  skip := by
    rintro _ _ ⟨t, us, vs, rfl, rfl, h⟩
    have hbehind : squeeze (behindLines us) = squeeze (behindLines vs) := by
      by_cases ht : t = .newLine
      · subst ht
        have hdrop := congrArg behindLines h
        rwa [← squeeze_behindLines, ← squeeze_behindLines] at hdrop
      · rw [squeeze_cons_of_ne ht, squeeze_cons_of_ne ht] at h
        rw [squeeze_behindLines, squeeze_behindLines, (List.cons.inj h).2]
    rcases squeeze_cases hbehind with ⟨hus, hvs⟩ | ⟨u, us', vs', hus, hvs⟩
    · exact .inl ⟨(overNewLines_behindLines _ us).1 hus, (overNewLines_behindLines _ vs).1 hvs⟩
    · refine .inr ⟨_, _, (overNewLines_behindLines _ us).2 u us' hus, (overNewLines_behindLines _ vs).2 u vs' hvs, ?_⟩
      exact ⟨u, us', vs', rfl, rfl, hus ▸ hvs ▸ hbehind⟩

/-- How many line breaks stand in one place is not seen. -/
theorem parsed_squeeze {us vs : List Token} (h : squeeze us = squeeze vs) (m n : Nat) : parsed m us = parsed n vs := by
  rcases squeeze_cases h with ⟨rfl, rfl⟩ | ⟨t, us, vs, rfl, rfl⟩
  · rfl
  · have hstep := squeezing.parsed_related (c := on (t :: us)) (d := on (t :: vs)) ⟨t, us, vs, rfl, rfl, h⟩ rfl m n
    have hid : Entity.mapLiterals squeezing.payload = id := funext Entity.mapLiterals_id
    rw [ahead_on, ahead_on, hid, List.map_id] at hstep
    exact hstep.symm

/-! ## The end of the last line -/

section LastLine

variable {ts : List Token}

/-- What can be said of every spelling of entities at the start of some tokens holds of what is parsed from them. -/
theorem parsed_extends {us vs : List Token} (h : ∀ w rest es, us = w ++ rest → SpellsEntities w rest es →
    ∃ w' rest', vs = w' ++ rest' ∧ SpellsEntities w' rest' es) (m n : Nat) : parsed m us <+: parsed n vs := by
  obtain ⟨w, rest, hw, hs, -⟩ := parsed_sound m us
  obtain ⟨w', rest', rfl, hs'⟩ := h w rest _ hw hs
  rw [parsed_append hs']
  exact List.prefix_append _ _

theorem closed_append {us vs : List Token} (h : Closed us → Closed vs) : Closed (ts ++ us) → Closed (ts ++ vs) := by
  cases ts with
  | nil => exact h
  | cons t ts =>
    rintro ⟨_, _, hu, hclose⟩
    cases hu
    exact ⟨t, _, rfl, hclose⟩

/-- A line break in front of the end token is not seen. -/
theorem parsed_newLine_endOfInput (m n : Nat) (ts : List Token) :
    parsed m (ts ++ [Token.newLine, .endOfInput]) = parsed n (ts ++ [Token.endOfInput]) := by
  have hnewLine : Closed [.newLine, .endOfInput] := ⟨_, _, rfl, by decide⟩
  have hend : Closed [.endOfInput] := ⟨_, _, rfl, by decide⟩
  refine List.IsPrefix.eq_of_length_le (parsed_extends (fun w rest es hw hs => ?_) m n)
    (parsed_extends (fun w rest es hw hs => ?_) n m).length_le
  · obtain ⟨w', u, rfl, hs'⟩ := hs.newLine_endOfInput hw
    refine ⟨w', u ++ [Token.endOfInput], List.append_assoc w' u _, ?_⟩
    exact hs'.replace (.inl (closed_append fun _ => hend))
  · obtain ⟨u, rfl, rfl⟩ := hs.endOfInput hw
    refine ⟨w, u ++ [Token.newLine, .endOfInput], List.append_assoc w u _, ?_⟩
    exact hs.replace (.inl (closed_append fun _ => hnewLine))

/-- Nor is a run of operator symbols in front of it: no entity ends in one. -/
theorem parsed_operator (m n : Nat) (o : String) (ts : List Token) :
    parsed m (ts ++ [Token.operator o, .newLine, .endOfInput]) = parsed n ts := by
  refine List.IsPrefix.eq_of_length_le (parsed_extends (fun w rest es hw hs => ?_) m n)
    (parsed_extends (fun w rest es hw hs => ?_) n m).length_le
  · have hassoc : ts ++ [Token.operator o, .newLine, .endOfInput] =
        (ts ++ [Token.operator o]) ++ [Token.newLine, .endOfInput] := by simp
    obtain ⟨w', u, hu, hs'⟩ := hs.newLine_endOfInput (hassoc ▸ hw)
    rcases concat_eq_append hu with ⟨rfl, rfl⟩ | ⟨u, rfl, rfl⟩
    · rcases hs'.last List.getLast?_concat with hlast | hlast <;> cases hlast
    · refine ⟨w', u, rfl, hs'.replace (.inl fun hclosed => ?_)⟩
      have hopen : ¬Closed [.operator o, .newLine, .endOfInput] := by
        rintro ⟨_, _, ho, hclose⟩
        cases ho
        simp [closers] at hclose
      have hnone : Closed (u ++ []) := by
        rw [List.append_assoc] at hclosed
        exact closed_append (fun h => absurd h hopen) hclosed
      rwa [List.append_nil] at hnone
  · refine ⟨w, rest ++ [Token.operator o, .newLine, .endOfInput], by rw [hw, List.append_assoc], hs.replace (.inl ?_)⟩
    have hnone : ¬Closed [] := by
      rintro ⟨_, _, h, -⟩
      cases h
    intro hclosed
    rw [← List.append_nil rest] at hclosed
    exact closed_append (fun h => absurd h hnone) hclosed

end LastLine

/-! ## Texts and their lines -/

section Lines

/-- A text is parsed as the same text with its last line ended. -/
theorem entities_lineFeed (s : List Char) : (File.ofText (s ++ ['\n'])).entities = (File.ofText s).entities := by
  rw [File.ofText, File.ofText, entities_ofTokens, entities_ofTokens, significant_lex_lineFeed, lineTokens_eq]
  by_cases h : (Automaton.fresh.run s).1.state = .operator
  · obtain ⟨hlex, o, howed⟩ := significant_lex_of_operator h
    rw [hlex, howed, List.append_assoc]
    exact parsed_operator _ _ o _
  · rw [significant_lex_of_ne h, ← List.append_assoc, List.append_assoc _ [Token.newLine]]
    exact parsed_newLine_endOfInput _ _ _

theorem intercalate_lineFeed {lines : List (List Char)} (h : lines ≠ []) :
    ['\n'].intercalate lines ++ ['\n'] = lines.flatMap (· ++ ['\n']) := by
  induction lines with
  | nil => exact absurd rfl h
  | cons l ls ih =>
    cases ls with
    | nil => rw [List.intercalate_singleton, List.flatMap_cons, List.flatMap_nil, List.append_nil]
    | cons l' ls =>
      rw [List.intercalate_cons_cons, List.flatMap_cons, ← ih (List.cons_ne_nil l' ls), List.append_assoc, List.append_assoc]

/-- A file is parsed from the tokens of its lines. -/
theorem entities_lines {lines : List (List Char)} (h : lines ≠ []) (n : Nat) :
    (File.ofText (['\n'].intercalate lines)).entities =
      parsed n (.newLine :: (lines.flatMap lineTokens ++ [Token.endOfInput])) := by
  rw [← entities_lineFeed, intercalate_lineFeed h, File.ofText, entities_ofTokens, significant_lex_lines, parsed_newLine,
    parsed_total]

end Lines

/-- The lines `ms` are the lines `ls` laid out anew: blanks may stand in front of a line, blanks and a comment behind it, and
lines of blanks and comments anywhere. -/
inductive Relaid : (ls ms : List (List Char)) → Prop
  | nil : Relaid [] []
  | line {front back : List Char} {ls ms : List (List Char)} (line : List Char) :
      IsBlanks front → Trails back → Relaid ls ms → Relaid (line :: ls) ((front ++ line ++ back) :: ms)
  | filling {filling : List Char} {ls ms : List (List Char)} : Fills filling → Relaid ls ms → Relaid ls (filling :: ms)

/-- Lines laid out anew say the same, but for the number of line breaks where there are some. -/
theorem Relaid.squeeze {ls ms : List (List Char)} (h : Relaid ls ms) (ts : List Token) :
    Parlance.squeeze (.newLine :: (ms.flatMap lineTokens ++ ts)) =
      Parlance.squeeze (.newLine :: (ls.flatMap lineTokens ++ ts)) := by
  induction h with
  | nil => rfl
  | @line front back ls ms line hfront hback _ ih =>
    have hline : ∀ us, .newLine :: (lineTokens line ++ us) =
        (.newLine :: (significant (tokensOf line) ++ (Automaton.fresh.run line).1.owed)) ++ .newLine :: us := by
      intro us
      rw [lineTokens_eq]
      simp
    rw [List.flatMap_cons, List.flatMap_cons, lineTokens_layout hfront hback, List.append_assoc, List.append_assoc, hline,
      hline]
    exact squeeze_congr _ ih
  | filling hfilling _ ih =>
    rw [List.flatMap_cons, lineTokens_filling hfilling]
    exact (squeeze_newLines _).trans ih

theorem Relaid.ne_nil {ls ms : List (List Char)} (h : Relaid ls ms) (hls : ls ≠ []) : ms ≠ [] := by
  cases h with
  | nil => exact absurd rfl hls
  | _ => exact List.cons_ne_nil _ _

/-- **Layout is not seen.** A text whose lines are laid out anew is parsed as the same file. -/
theorem File.ofText_relaid {text : List Char} {lines : List (List Char)} (h : Relaid (text.splitOn '\n') lines) :
    File.ofText (['\n'].intercalate lines) = File.ofText text := by
  have hne : text.splitOn '\n' ≠ [] := List.splitOn_ne_nil _ _
  have hlines : File.ofText text = File.ofText (['\n'].intercalate (text.splitOn '\n')) := by
    rw [List.intercalate_splitOn]
  have hentities : (File.ofText (['\n'].intercalate lines)).entities = (File.ofText text).entities := by
    rw [hlines, entities_lines (h.ne_nil hne) 0, entities_lines hne 0]
    exact parsed_squeeze (h.squeeze _) 0 0
  generalize File.ofText (['\n'].intercalate lines) = f at hentities
  cases f
  cases hentities
  rfl

/-- A declaration and an operator that ends the text: indented, with a comment behind the one and a blank behind the other,
and a line of its own for another comment. -/
theorem File.ofText_relaid_operator :
    Relaid ("val a: A = 'b\n+".toList.splitOn '\n') ["\tval a: A = 'b #c".toList, " # it's\"".toList, "+ ".toList] ∧
    File.ofText "\tval a: A = 'b #c\n # it's\"\n+ ".toList = File.ofText "val a: A = 'b\n+".toList := by
  have hsplit : "val a: A = 'b\n+".toList.splitOn '\n' = ["val a: A = 'b".toList, "+".toList] := by decide
  have hblank : Trails [' '] := ⟨[' '], [], rfl, by decide, .inl rfl⟩
  have hnote : Trails " #c".toList := ⟨[' '], "#c".toList, rfl, by decide, .inr ⟨['c'], rfl, by simp [endMark]⟩⟩
  have hfills : Fills " # it's\"".toList :=
    ⟨[' '], "# it's\"".toList, rfl, by decide, .inr ⟨" it's\"".toList, rfl, by simp [endMark]⟩⟩
  have hrelaid : Relaid ("val a: A = 'b\n+".toList.splitOn '\n')
      ["\tval a: A = 'b #c".toList, " # it's\"".toList, "+ ".toList] := by
    rw [hsplit]
    exact .line _ (by decide : IsBlanks ['\t']) hnote (.filling hfills (.line _ (by decide : IsBlanks []) hblank .nil))
  have htext : ['\n'].intercalate ["\tval a: A = 'b #c".toList, " # it's\"".toList, "+ ".toList] =
      "\tval a: A = 'b #c\n # it's\"\n+ ".toList := by decide
  refine ⟨hrelaid, ?_⟩
  rw [← htext]
  exact ofText_relaid hrelaid

end Parlance
