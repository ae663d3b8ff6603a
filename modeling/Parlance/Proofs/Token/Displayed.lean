import Parlance.Proofs.Token.Writing
import Parlance.Token.Display

/-!
# Displayed literals are read back

The display of a literal is nearly a text of the language. An integer is shown by its numeral. Between quotes, a character
is shown in a form that **denotes** it, unless it is shown by an escape outside the language's table (`isNumbered`): the end
mark, and what has no visible form apart from tab, line feed and carriage return. A string keeps such an escape as it
stands, so that it becomes another string (`unescape_displayed_iff`), and it makes a character literal malformed
(`lex_display_numbered`).

* a string or a character is read back from its display if and only if no character of it is shown by such an escape
  (`lex_display_string_iff`, `lex_display_char_iff`);
* among the ASCII characters those are the control characters but tab, line feed and carriage return
  (`isNumbered_iff_of_isAscii`).
-/

namespace Parlance

/-! ## Escapes that are not read back -/

/-- The display shows the character by an escape that the language does not have. -/
def isNumbered (c : Char) : Bool :=
  c = '\x00' || (isUnprintable c && c != '\t' && c != '\n' && c != '\r')

/-- A character that means itself in a quoted literal of either kind. -/
def isPlain (c : Char) : Bool :=
  c != '\\' && c != '"' && c != '\'' && c != '\n' && c != endMark

/-- The text is an escape outside the table, with plain characters behind it. -/
inductive Unresolved : List Char → Prop where
  | intro {e : Char} {w : List Char} (unknown : resolveEscape e = none) (plain : isPlain e = true)
      (rest : ∀ d ∈ w, isPlain d = true) : Unresolved ('\\' :: e :: w)

section Displayed

variable {quote c : Char}

/-- A character by its number is an escape outside the table. -/
theorem unresolved_numbered (c : Char) : Unresolved (numbered c) := by
  refine .intro rfl rfl fun d hd => ?_
  have hdigits : ∀ m < 16, isPlain (Radix.glyph m).toLower = true := by decide
  rcases List.mem_append.mp hd with hd | hd
  · rcases List.mem_cons.mp hd with rfl | hd
    · rfl
    · obtain ⟨g, hg, rfl⟩ := List.mem_map.mp hd
      obtain ⟨m, hm, rfl⟩ := Radix.hexadecimal.mem_digits hg
      exact hdigits m hm
  · rw [List.mem_singleton.mp hd]
    rfl

/-- A numbered character is displayed by such an escape, -/
theorem displayed_of_isNumbered (hquote : quote = '"' ∨ quote = '\'') (h : isNumbered c = true) :
    displayed quote c = if c = '\x00' then ['\\', '0'] else numbered c := by
  have hvisible : isUnprintable '\\' = false ∧ isUnprintable quote = false := by
    rcases hquote with rfl | rfl <;> decide
  by_cases hnul : c = '\x00'
  · rw [displayed, if_pos hnul, if_pos hnul]
  · simp only [isNumbered, Bool.or_eq_true, decide_eq_true_eq, Bool.and_eq_true, bne_iff_ne, ne_eq] at h
    obtain ⟨⟨⟨hunprintable, htab⟩, hline⟩, hreturn⟩ := h.resolve_left hnul
    have hescape : ¬(c = '\\' ∨ c = quote) := by
      rintro (rfl | rfl) <;> simp [hvisible] at hunprintable
    rw [displayed, if_neg hnul, if_neg htab, if_neg hline, if_neg hreturn, if_neg hescape, if_pos hunprintable,
      if_neg hnul]

theorem unresolved_displayed (hquote : quote = '"' ∨ quote = '\'') (h : isNumbered c = true) :
    Unresolved (displayed quote c) := by
  rw [displayed_of_isNumbered hquote h]
  split
  · exact .intro rfl rfl nofun
  · exact unresolved_numbered c

/-- and any other one in a form that denotes it. -/
theorem denotes_displayed (hquote : resolveEscape quote = some quote) (h : isNumbered c = false) :
    Denotes quote c (displayed quote c) := by
  simp only [isNumbered, Bool.or_eq_false_iff, decide_eq_false_iff_not] at h
  obtain ⟨hnul, hvisible⟩ := h
  rw [displayed, if_neg hnul]
  by_cases htab : c = '\t'
  · rw [if_pos htab, htab]
    exact .escape rfl
  by_cases hline : c = '\n'
  · rw [if_neg htab, if_pos hline, hline]
    exact .escape rfl
  by_cases hreturn : c = '\r'
  · rw [if_neg htab, if_neg hline, if_pos hreturn, hreturn]
    exact .escape rfl
  rw [if_neg htab, if_neg hline, if_neg hreturn]
  by_cases hescape : c = '\\' ∨ c = quote
  · rw [if_pos hescape]
    rcases hescape with rfl | rfl
    · exact .escape rfl
    · exact .escape hquote
  · have hprintable : ¬isUnprintable c = true := by simpa [htab, hline, hreturn] using hvisible
    rw [if_neg hescape, if_neg hprintable]
    exact .plain (fun h => hescape (.inl h)) (fun h => hescape (.inr h)) hline

end Displayed

/-! ## Strings -/

section Strings

variable {u w : List Char}

theorem isPlain_iff {d : Char} : isPlain d = true ↔ d ≠ '\\' ∧ d ≠ '"' ∧ d ≠ '\'' ∧ d ≠ '\n' ∧ d ≠ endMark := by
  simp only [isPlain, Bool.and_eq_true, bne_iff_ne, and_assoc]

theorem unescape_plain (h : ∀ d ∈ w, isPlain d = true) (cs : List Char) : unescape (w ++ cs) = w ++ unescape cs := by
  induction w with
  | nil => rfl
  | cons d w ih =>
    obtain ⟨hd, hw⟩ := List.forall_mem_cons.mp h
    obtain ⟨hslash, -⟩ := isPlain_iff.mp hd
    rw [List.cons_append, unescape, ih hw, List.cons_append]
    exact fun _ _ h _ => hslash h

theorem isPaired_plain (h : ∀ d ∈ w, isPlain d = true) (cs : List Char) : isPaired (w ++ cs) = isPaired cs := by
  induction w with
  | nil => rfl
  | cons d w ih =>
    obtain ⟨hd, hw⟩ := List.forall_mem_cons.mp h
    obtain ⟨hslash, hquote, -⟩ := isPlain_iff.mp hd
    rw [List.cons_append, isPaired, ih hw]
    · simp [hslash, hquote]
    · exact fun _ _ h _ => hslash h

/-- A string keeps an unresolved escape as it stands. -/
theorem Unresolved.unescape_append (h : Unresolved u) (cs : List Char) : unescape (u ++ cs) = u ++ unescape cs := by
  cases h with
  | intro unknown _ rest => simp [unescape, unknown, unescape_plain rest]

theorem Unresolved.isPaired_append (h : Unresolved u) (cs : List Char) : isPaired (u ++ cs) = isPaired cs := by
  cases h with
  | intro _ _ rest => exact isPaired_plain rest cs

theorem Unresolved.notMem (h : Unresolved u) : '\n' ∉ u ∧ endMark ∉ u := by
  cases h with
  | @intro e w _ plain rest =>
    have hplain : ∀ d ∈ e :: w, isPlain d = true := List.forall_mem_cons.mpr ⟨plain, rest⟩
    have hnone : ∀ d, isPlain d = false → d ≠ '\\' → d ∉ '\\' :: e :: w := by
      intro d hd hslash hm
      have hpart := hplain d ((List.mem_cons.mp hm).resolve_left hslash)
      rw [hd] at hpart
      cases hpart
    exact ⟨hnone '\n' rfl (by decide), hnone endMark rfl (by decide)⟩

/-- Whatever a character is, its display neither ends a string nor leaves an escape open. -/
theorem displayed_string (c : Char) :
    (∀ cs, isPaired (displayed '"' c ++ cs) = isPaired cs) ∧ '\n' ∉ displayed '"' c ∧ endMark ∉ displayed '"' c := by
  cases hc : isNumbered c with
  | true =>
    have hu : Unresolved (displayed '"' c) := unresolved_displayed (.inl rfl) hc
    exact ⟨hu.isPaired_append, hu.notMem⟩
  | false =>
    have hd : Denotes '"' c (displayed '"' c) := denotes_displayed rfl hc
    have hend : c ≠ endMark := by
      rintro rfl
      cases hc
    exact ⟨hd.isPaired_append, hd.lineFeed_notMem, hd.endMark_notMem hend⟩

/-- The display of any string is the body of a string literal. -/
theorem isBody_displayed (s : List Char) : IsBody (s.flatMap (displayed '"')) := by
  constructor
  · induction s with
    | nil => rfl
    | cons c s ih => rw [List.flatMap_cons, (displayed_string c).1, ih]
  · intro hm
    obtain ⟨c, -, hc⟩ := List.mem_flatMap.mp hm
    exact (displayed_string c).2.1 hc
  · intro hm
    obtain ⟨c, -, hc⟩ := List.mem_flatMap.mp hm
    exact (displayed_string c).2.2 hc

/-- That body stands for the string itself only if nothing in it is numbered: a numbered character is no backslash, but
what is read for it begins with one. -/
theorem unescape_displayed_iff (s : List Char) :
    unescape (s.flatMap (displayed '"')) = s ↔ ∀ c ∈ s, isNumbered c = false := by
  induction s with
  | nil => exact iff_of_true rfl nofun
  | cons c s ih =>
    rw [List.flatMap_cons, List.forall_mem_cons]
    cases hc : isNumbered c with
    | false =>
      have hd : Denotes '"' c (displayed '"' c) := denotes_displayed rfl hc
      rw [hd.unescape_append, List.cons_inj_right, ih]
      simp
    | true =>
      have hu : Unresolved (displayed '"' c) := unresolved_displayed (.inl rfl) hc
      rw [hu.unescape_append]
      constructor
      · intro h
        generalize displayed '"' c = u at hu h
        cases hu with
        | intro =>
          have hslash : '\\' = c := (List.cons.inj h).1
          rw [← hslash] at hc
          exact absurd hc (by decide)
      · rintro ⟨h, -⟩
        cases h

theorem lex_display_string (v : String) : lex (Literal.string v).display =
    [.literal (.string (.ofList (unescape (v.toList.flatMap (displayed '"'))))), .endOfInput] :=
  lex_body (isBody_displayed v.toList)

theorem lex_display_string_iff (v : String) :
    lex (Literal.string v).display = [.literal (.string v), .endOfInput] ↔ ∀ c ∈ v.toList, isNumbered c = false := by
  rw [lex_display_string, ← unescape_displayed_iff]
  constructor
  · intro h
    have hv : String.ofList (unescape (v.toList.flatMap (displayed '"'))) = v := by simpa using h
    have hlist := congrArg String.toList hv
    rwa [String.toList_ofList] at hlist
  · intro h
    rw [h, String.ofList_toList]

end Strings

/-! ## Characters -/

/-- Behind an unresolved escape the next quote closes a malformed literal. -/
theorem Unresolved.lex_char {u : List Char} (h : Unresolved u) :
    lex ('\'' :: (u ++ ['\''])) = [.literal .badChar, .endOfInput] := by
  have hend : endMark ∉ '\'' :: (u ++ ['\'']) := by simpa [endMark] using h.notMem.2
  rw [lex_munch hend]
  cases h with
  | @intro e w unknown plain rest =>
    obtain ⟨-, -, -, hline, -⟩ := isPlain_iff.mp plain
    have hclose : (w ++ ['\'']).dropWhile (fun c => !(c == '\'' || isLineFeed c)) = ['\''] := by
      refine dropWhile_run (fun d hd => ?_) fun d hd => ?_
      · obtain ⟨-, -, hquote, hfeed, -⟩ := isPlain_iff.mp (rest d hd)
        simp [hquote, hfeed, isLineFeed]
      · cases hd
        rfl
    have hchar : munch '\'' ('\\' :: e :: w ++ ['\'']) = .closeChar none (w ++ ['\'']) := by
      show Munch.char ('\\' :: e :: (w ++ ['\''])) = _
      rw [Munch.char, firstUnit, if_neg hline, unknown]
    rw [hchar, Munch.closeChar, afterQuote, hclose]
    · rfl
    · intro d v hnone
      cases hnone

theorem display_char (c : Char) : (Literal.char c).display = '\'' :: (displayed '\'' c ++ ['\'']) := by
  show quoted '\'' [c] = _
  rw [quoted, List.flatMap_singleton, List.cons_append]

theorem lex_display_numbered {c : Char} (h : isNumbered c = true) :
    lex (Literal.char c).display = [.literal .badChar, .endOfInput] := by
  have hu : Unresolved (displayed '\'' c) := unresolved_displayed (.inr rfl) h
  rw [display_char, hu.lex_char]

theorem lex_display_char_iff (c : Char) :
    lex (Literal.char c).display = [.literal (.char c), .endOfInput] ↔ isNumbered c = false := by
  cases hc : isNumbered c with
  | true => simp [lex_display_numbered hc]
  | false =>
    have hd : Denotes '\'' c (displayed '\'' c) := denotes_displayed rfl hc
    have hend : c ≠ endMark := by
      rintro rfl
      cases hc
    refine iff_of_true ?_ rfl
    rw [display_char, hd.lex_char hend]

/-! ## ASCII -/

/-- The characters below U+0080. -/
def isAscii (c : Char) : Bool := c.toNat < 0x80

/-- The control characters of ASCII. -/
def isControl (c : Char) : Bool := c.toNat < 0x20 || c.toNat == 0x7F

theorem isUnprintable_iff_of_isAscii {c : Char} (h : isAscii c = true) : isUnprintable c = isControl c := by
  simp only [isAscii, decide_eq_true_eq] at h
  by_cases hlow : c.toNat < 0x20
  · simp [isUnprintable, isControl, hlow]
  by_cases hdelete : c.toNat = 0x7F
  · obtain rfl : c = '\x7f' := Char.toNat_inj.mp hdelete
    decide
  · have hmiddle : c.toNat < 0x7F := by omega
    simp [isUnprintable, isControl, hlow, hdelete, hmiddle]

/-- The numbered ASCII characters are the control characters that have no letter of their own. -/
theorem isNumbered_iff_of_isAscii {c : Char} (h : isAscii c = true) :
    isNumbered c = false ↔ (isControl c = true → c ∈ ['\t', '\n', '\r']) := by
  by_cases hnul : c = '\x00'
  · subst hnul
    decide
  · rw [isNumbered, isUnprintable_iff_of_isAscii h]
    cases isControl c with
    | false => simp [hnul]
    | true => simp [hnul, Decidable.or_iff_not_imp_left]

/-- **Displayed literals.** Every integer is read back from its display, in each radix. A string or a character of ASCII is
read back from its display if and only if it holds no control character but tab, line feed and carriage return: any other
one is displayed as `\0` or by its number, and neither escape is resolved. -/
theorem lex_display :
    (∀ r v, lex (Literal.integer r v).display = [.literal (.integer r v), .endOfInput]) ∧
    (∀ v : String, (∀ c ∈ v.toList, isAscii c = true) →
      (lex (Literal.string v).display = [.literal (.string v), .endOfInput] ↔
        ∀ c ∈ v.toList, isControl c = true → c ∈ ['\t', '\n', '\r'])) ∧
    (∀ c, isAscii c = true →
      (lex (Literal.char c).display = [.literal (.char c), .endOfInput] ↔
        (isControl c = true → c ∈ ['\t', '\n', '\r']))) ∧
    ∀ c, isAscii c = true → isControl c = true → c ∉ ['\t', '\n', '\r'] → ∀ quote, quote = '"' ∨ quote = '\'' →
      (displayed quote c = ['\\', '0'] ∨ displayed quote c = numbered c) ∧ Unresolved (displayed quote c) := by
  refine ⟨fun r v => ?_, fun v hv => ?_, fun c hc => ?_, fun c hc hcontrol hletter quote hquote => ?_⟩
  · have hlex := @lex_text [.literal (.integer r v)] (by simp [Token.Proper, Literal.Proper]) ⟨rfl, trivial⟩
    rw [List.flatMap_singleton] at hlex
    exact hlex
  · rw [lex_display_string_iff]
    exact forall₂_congr fun c hc => isNumbered_iff_of_isAscii (hv c hc)
  · rw [lex_display_char_iff, isNumbered_iff_of_isAscii hc]
  · have hnumbered : isNumbered c = true := by
      rw [← Bool.not_eq_false, isNumbered_iff_of_isAscii hc]
      exact fun h => hletter (h hcontrol)
    refine ⟨?_, unresolved_displayed hquote hnumbered⟩
    rw [displayed_of_isNumbered hquote hnumbered]
    split
    · exact .inl rfl
    · exact .inr rfl

/-- The largest integer; a string with every escape that is read back; and two characters that are not. -/
theorem lex_display_samples :
    lex "0xFFFFFFFFFFFFFFFF".toList = [.literal (.integer .hexadecimal 0xFFFFFFFFFFFFFFFF), .endOfInput] ∧
    ((∀ c ∈ "a'\"\\\t\n\r".toList, isAscii c = true) ∧
      lex (Literal.string "a'\"\\\t\n\r").display = [.literal (.string "a'\"\\\t\n\r"), .endOfInput]) ∧
    (isAscii '\x7f' = true ∧ lex (Literal.char '\x7f').display ≠ [.literal (.char '\x7f'), .endOfInput]) ∧
    isAscii '\x08' = true ∧ isControl '\x08' = true ∧ Unresolved (displayed '"' '\x08') := by
  obtain ⟨hinteger, hstring, hchar, hescape⟩ := lex_display
  have hascii : ∀ c ∈ "a'\"\\\t\n\r".toList, isAscii c = true := by simp [isAscii]
  have hletters : ∀ c ∈ "a'\"\\\t\n\r".toList, isControl c = true → c ∈ ['\t', '\n', '\r'] := by simp [isControl]
  refine ⟨?_, ⟨hascii, (hstring _ hascii).mpr hletters⟩, ⟨rfl, fun h => ?_⟩, rfl, rfl, ?_⟩
  · have hlargest := hinteger .hexadecimal 0xFFFFFFFFFFFFFFFF
    have hdigits : Radix.hexadecimal.digits 0xFFFFFFFFFFFFFFFF = "FFFFFFFFFFFFFFFF".toList := by decide +kernel
    have hdisplay : (Literal.integer .hexadecimal 0xFFFFFFFFFFFFFFFF).display = "0xFFFFFFFFFFFFFFFF".toList :=
      congrArg ("0x".toList ++ ·) hdigits
    rwa [hdisplay] at hlargest
  · exact absurd ((hchar '\x7f' rfl).mp h rfl) (by decide)
  · exact (hescape '\x08' rfl rfl (by decide) '"' (.inl rfl)).2

end Parlance
