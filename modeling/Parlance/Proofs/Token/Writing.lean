import Parlance.Proofs.Text.Numeral
import Parlance.Proofs.Token.Quoting

/-!
# Tokens as text

`Token.text` writes a token down: a numeral with the mark of its radix, a literal between its quotes with the quotes, the
backslash and the line feed escaped. Written one after the other, tokens can run together: two words become one, an
operator swallows the next one, and an unclosed string the rest of its line. Where no token does so with the next one
(`Spaced`), proper tokens are found again in their text (`lex_text`), also with another text behind them
(`lex_text_append`).
-/

namespace Parlance

/-! ## Text -/

/-- A character between quotes of either kind. -/
def escaped : Char → List Char
  | '\\' => ['\\', '\\']
  | '"' => ['\\', '"']
  | '\'' => ['\\', '\'']
  | '\n' => ['\\', 'n']
  | c => [c]

def Literal.text : Literal → List Char
  | integer r v => r.numeral v.toNat
  | string s => '"' :: (s.toList.flatMap escaped ++ ['"'])
  | badString => ['"']
  | char c => '\'' :: (escaped c ++ ['\''])
  | badChar => ['\'', '\'']

namespace Token

def text : Token → List Char
  | identifier name => name.toList
  | operator o => o.toList
  | literal l => l.text
  | keyword k => k.spelling.toList
  | leftParen => ['(']
  | rightParen => [')']
  | leftCurl => ['{']
  | rightCurl => ['}']
  | colon => [':']
  | comma => [',']
  | newLine => ['\n']
  | blank => [' ']
  | comment => ['#']
  | unknown => ['?']
  | endOfInput => []

/-- The text of the token consists of letters, digits and underscores. -/
def isWordlike : Token → Bool
  | identifier _ | keyword _ | literal (.integer ..) => true
  | _ => false

def isOperator : Token → Bool
  | operator _ => true
  | _ => false

/-- The text of the token is not longer for the text of the next one, if there is any, right behind it. -/
def endsBefore (next : Option Token) : Token → Bool
  | identifier _ | keyword _ | literal (.integer ..) => next.all fun u => !u.isWordlike
  | operator _ => next.any fun u => !u.isOperator
  | blank => next.all (· ≠ blank)
  | comment | literal .badString => next.all (· = newLine)
  | endOfInput => false
  | _ => true

end Token

/-- Each token ends where the next one begins. -/
def Spaced : List Token → Prop
  | [] => True
  | t :: ts => t.endsBefore ts.head? = true ∧ Spaced ts

/-! ## Runs of characters -/

section Run

variable {front cs rest : List Char} {part : Char → Bool} {toToken : List Char → Token}

theorem takeWhile_run (hcs : ∀ c ∈ cs, part c = true) (hrest : ∀ c ∈ rest.head?, part c = false) :
    (cs ++ rest).takeWhile part = cs := by
  rw [List.takeWhile_append_of_pos hcs]
  cases rest with
  | nil => simp
  | cons c rest => simp [hrest c rfl]

theorem dropWhile_run (hcs : ∀ c ∈ cs, part c = true) (hrest : ∀ c ∈ rest.head?, part c = false) :
    (cs ++ rest).dropWhile part = rest := by
  rw [List.dropWhile_append_of_pos hcs]
  cases rest with
  | nil => rfl
  | cons c rest => simp [hrest c rfl]

theorem run_exact (hcs : ∀ c ∈ cs, part c = true) (hrest : ∀ c ∈ rest.head?, part c = false) :
    Munch.run front part (cs ++ rest) toToken = .token (toToken (front ++ cs)) rest := by
  rw [Munch.run, takeWhile_run hcs hrest, dropWhile_run hcs hrest]

end Run

/-! ## Classes of characters -/

section Classes

variable {c : Char}

theorem isWordPart_of_isWordStart (h : isWordStart c = true) : isWordPart c = true := by
  rcases Bool.or_eq_true_iff.mp h with hl | hu
  · simp [isWordPart, hl]
  · simp [isWordPart, hu]

theorem isWordPart_of_isDigit (h : isDigit c = true) : isWordPart c = true := by
  simp [isWordPart, h]

theorem isWordPart_of_isHexadecimalDigit (h : isHexadecimalDigit c = true) : isWordPart c = true := by
  have hletter : isLetter c = true → isWordPart c = true := fun hl => by simp [isWordPart, hl]
  simp only [isHexadecimalDigit, Bool.or_eq_true, Bool.and_eq_true, decide_eq_true_eq] at h
  rcases h with (h | ⟨hfirst, hlast⟩) | ⟨hfirst, hlast⟩
  · exact isWordPart_of_isDigit h
  · exact hletter (isLetter_iff.mpr (.inr ⟨hfirst, Char.le_trans hlast (by decide)⟩))
  · exact hletter (isLetter_iff.mpr (.inl ⟨hfirst, Char.le_trans hlast (by decide)⟩))

/-- A numeral goes on with parts of words only. -/
theorem isWordPart_of_isNumeralPart {r : Radix} (h : State.isNumeralPart r c = true) : isWordPart c = true := by
  rcases Bool.or_eq_true_iff.mp h with hu | hd
  · simp [isWordPart, hu]
  · cases r with
    | binary =>
      simp only [isBinaryDigit, Bool.or_eq_true, beq_iff_eq] at hd
      rcases hd with rfl | rfl <;> rfl
    | decimal => exact isWordPart_of_isDigit hd
    | hexadecimal => exact isWordPart_of_isHexadecimalDigit hd

theorem not_isWordStart_of_isDigit (h : isDigit c = true) : isWordStart c = false := by
  have hlast : c ≤ '9' := (Char.isDigit_iff_toNat.mp h).2
  have hbelow : ∀ {d : Char}, '9' < d → ¬d ≤ c := fun hd hle => absurd (Char.le_trans hle hlast) (Char.not_le.mpr hd)
  have hunderscore : c ≠ '_' := by
    rintro rfl
    exact hbelow (by decide) (Char.le_refl _)
  have hletter : ¬isLetter c = true := by
    rw [isLetter_iff]
    rintro (hl | hl)
    · exact hbelow (by decide) hl.1
    · exact hbelow (by decide) hl.1
  simp [isWordStart, isUnderscore, hunderscore, hletter]

/-- The marks of the radixes are letters. -/
theorem not_isMark (h : isWordPart c = false ∨ isDigit c = true) : isBinaryMark c = false ∧ isHexadecimalMark c = false := by
  have letters : ['b', 'B', 'x', 'X'].all (fun m => isWordPart m && !isDigit m) = true := rfl
  have hne : ∀ m ∈ ['b', 'B', 'x', 'X'], c ≠ m := by
    rintro m hm rfl
    have hm := List.all_eq_true.mp letters c hm
    rcases h with h | h <;> simp [h] at hm
  simp [isBinaryMark, isHexadecimalMark, hne 'b', hne 'B', hne 'x', hne 'X']

/-- A decimal numeral does not go on with a mark. -/
theorem not_isMark_of_isNumeralPart (h : State.isNumeralPart .decimal c = true) :
    isBinaryMark c = false ∧ isHexadecimalMark c = false := by
  rcases Bool.or_eq_true_iff.mp h with hu | hd
  · rw [eq_of_beq hu]
    exact ⟨rfl, rfl⟩
  · exact not_isMark (.inr hd)

/-- Operator symbols are neither parts of words nor blanks. -/
theorem disjoint_isOperatorSymbol (h : isOperatorSymbol c = true) : isWordPart c = false ∧ isBlank c = false := by
  have symbols : operatorSymbols.all (fun c => !isWordPart c && !isBlank c) = true := rfl
  have hc : c ∈ operatorSymbols := by simpa [isOperatorSymbol] using h
  simpa using List.all_eq_true.mp symbols c hc

/-- Parts of words are neither operator symbols nor blanks. -/
theorem disjoint_isWordPart (h : isWordPart c = true) : isOperatorSymbol c = false ∧ isBlank c = false := by
  constructor
  · cases ho : isOperatorSymbol c with
    | false => rfl
    | true =>
      rw [(disjoint_isOperatorSymbol ho).1] at h
      cases h
  · cases hb : isBlank c with
    | false => rfl
    | true =>
      simp only [isBlank, Bool.or_eq_true, beq_iff_eq] at hb
      rcases hb with rfl | rfl <;> cases h

theorem isNumeralPart_glyph (r : Radix) {d : Nat} (h : d < r.base) : State.isNumeralPart r (Radix.glyph d) = true := by
  have all : ∀ d < r.base, State.isNumeralPart r (Radix.glyph d) = true := by cases r <;> decide
  exact all d h

theorem isDigit_glyph {d : Nat} (h : d < Radix.decimal.base) : isDigit (Radix.glyph d) = true := by
  have all : ∀ d < Radix.decimal.base, isDigit (Radix.glyph d) = true := by decide
  exact all d h

end Classes

/-! ## Each kind of token -/

section Kinds

variable {c : Char} {cs rest : List Char}

theorem munch_of_isWordStart (h : isWordStart c = true) : munch c cs = .word c cs := by
  unfold munch
  rw [if_pos h]

theorem munch_of_isDigit (h : isDigit c = true) : munch c cs = .numeral c cs := by
  have hword : ¬isWordStart c = true := by simp [not_isWordStart_of_isDigit h]
  unfold munch
  rw [if_neg hword, if_pos h]

theorem munch_of_isOperatorSymbol (h : isOperatorSymbol c = true) : munch c cs = .operator c cs := by
  obtain ⟨hpart, -⟩ := disjoint_isOperatorSymbol h
  have hword : ¬isWordStart c = true := fun hc => by
    rw [isWordPart_of_isWordStart hc] at hpart
    cases hpart
  have hdigit : ¬isDigit c = true := fun hc => by
    rw [isWordPart_of_isDigit hc] at hpart
    cases hpart
  unfold munch
  rw [if_neg hword, if_neg hdigit, if_pos h]

theorem IsWord.head {w : List Char} (h : IsWord w) : ∃ c cs, w = c :: cs ∧ isWordStart c = true := by
  cases w with
  | nil => exact h.elim
  | cons c cs => exact ⟨c, cs, rfl, h.1⟩

theorem munch_word {w : List Char} (hw : IsWord w) (hrest : ∀ d ∈ rest.head?, isWordPart d = false) :
    ∃ c cs, w = c :: cs ∧ munch c (cs ++ rest) = .token (.ofWord (.ofList w)) rest := by
  cases w with
  | nil => exact hw.elim
  | cons c cs =>
    obtain ⟨hc, hcs⟩ := hw
    refine ⟨c, cs, rfl, ?_⟩
    rw [munch_of_isWordStart hc, Munch.word, run_exact (List.all_eq_true.mp hcs) hrest, List.singleton_append]

theorem isWord_spelling (k : Keyword) : IsWord k.spelling.toList := by
  rcases k with _ | _ | _ | _ | (_ | _) <;> decide

theorem ofWord_spelling (k : Keyword) : Token.ofWord k.spelling = .keyword k := by
  rw [Token.ofWord, Keyword.ofSpelling?_eq_some_iff.mpr rfl]

theorem munch_operator {o : String} (ho : IsOperator o) (hrest : ∃ d ds, rest = d :: ds ∧ isOperatorSymbol d = false) :
    ∃ c cs, o.toList = c :: cs ∧ munch c (cs ++ rest) = .token (.operator o) rest := by
  obtain ⟨hne, hall⟩ := ho
  obtain ⟨d, ds, rfl, hd⟩ := hrest
  obtain ⟨c, cs, hcs⟩ := List.exists_cons_of_ne_nil hne
  rw [hcs, List.all_eq_true] at hall
  have hrun : ∀ e ∈ cs, isOperatorSymbol e = true := fun e he => hall e (List.mem_cons_of_mem c he)
  have hstop : ∀ e ∈ (d :: ds).head?, isOperatorSymbol e = false := by
    intro e he
    cases he
    exact hd
  have ho : String.ofList (c :: cs) = o := by rw [← hcs, String.ofList_toList]
  refine ⟨c, cs, hcs, ?_⟩
  rw [munch_of_isOperatorSymbol (hall c List.mem_cons_self), Munch.operator, takeWhile_run hrun hstop,
    dropWhile_run hrun hstop, ho]

/-- A numeral starts with a digit. -/
theorem cons_of_opens_numeral {r : Radix} {w : List Char} (h : (State.numeral r).Opens w) :
    ∃ c cs, w = c :: cs ∧ isDigit c = true := by
  cases h with
  | binary => exact ⟨'0', _, rfl, rfl⟩
  | hexadecimal => exact ⟨'0', _, rfl, rfl⟩
  | decimal run =>
    cases w with
    | nil => exact run.elim
    | cons c cs => exact ⟨c, cs, rfl, run.1⟩

/-- A decimal numeral in front of a text that does not make its zero a numeral of another radix. -/
theorem numeral_decimal (hcs : ∀ d ∈ cs, State.isNumeralPart .decimal d = true)
    (hzero : c :: cs = ['0'] → ∀ m ∈ rest.head?, isBinaryMark m = false ∧ isHexadecimalMark m = false) :
    Munch.numeral c (cs ++ rest) = Munch.numeral.digits .decimal [c] (cs ++ rest) := by
  unfold Munch.numeral
  split
  · rename_i m ds hm
    have hmark : isBinaryMark m = false ∧ isHexadecimalMark m = false := by
      cases cs with
      | nil =>
        have hrest : rest = m :: ds := hm
        exact hzero rfl m (by rw [hrest]; rfl)
      | cons d ds =>
        cases hm
        exact not_isMark_of_isNumeralPart (hcs _ List.mem_cons_self)
    rw [hmark.1, hmark.2]
    exact congrArg (Munch.numeral.digits .decimal ['0']) hm.symm
  · rfl

/-- A numeral is found in front of a text that does not go on with it. -/
theorem numeral_exact {r : Radix} (h : (State.numeral r).Opens (c :: cs))
    (hrest : ∀ d ∈ rest.head?, State.isNumeralPart r d = false)
    (hzero : c :: cs = ['0'] → ∀ m ∈ rest.head?, isBinaryMark m = false ∧ isHexadecimalMark m = false) :
    Munch.numeral c (cs ++ rest) = .token (.literal (.integer r (r.value (c :: cs)))) rest := by
  cases h with
  | @binary m ds mark digits =>
    have hnumeral : Munch.numeral '0' (m :: ds ++ rest) = Munch.numeral.digits .binary ['0', m] (ds ++ rest) := if_pos mark
    exact hnumeral.trans (run_exact digits hrest)
  | @hexadecimal m ds mark digits =>
    have hbinary : ¬isBinaryMark m = true := by
      simp only [isHexadecimalMark, Bool.or_eq_true, beq_iff_eq] at mark
      rcases mark with rfl | rfl <;> decide
    have hnumeral : Munch.numeral '0' (m :: ds ++ rest) = Munch.numeral.digits .hexadecimal ['0', m] (ds ++ rest) :=
      (if_neg hbinary).trans (if_pos mark)
    exact hnumeral.trans (run_exact digits hrest)
  | decimal run => exact (numeral_decimal run.2 hzero).trans (run_exact run.2 hrest)

theorem opens_numeral (r : Radix) (n : Nat) : (State.numeral r).Opens (r.numeral n) := by
  have hdigits : ∀ d ∈ r.digits n, State.isNumeralPart r d = true := by
    intro d hd
    obtain ⟨m, hm, rfl⟩ := r.mem_digits hd
    exact isNumeralPart_glyph r hm
  cases r with
  | binary => exact .binary rfl hdigits
  | hexadecimal => exact .hexadecimal rfl hdigits
  | decimal =>
    refine .decimal ?_
    show IsRun isDigit (State.isNumeralPart .decimal) (Radix.decimal.digits n)
    obtain ⟨c, cs, hcs⟩ := List.exists_cons_of_ne_nil (Radix.decimal.digits_ne_nil n)
    obtain ⟨m, hm, hc⟩ := Radix.decimal.mem_digits (hcs ▸ List.mem_cons_self : c ∈ Radix.decimal.digits n)
    rw [hcs] at hdigits ⊢
    exact ⟨hc ▸ isDigit_glyph hm, fun d hd => hdigits d (List.mem_cons_of_mem c hd)⟩

theorem munch_integer (r : Radix) (v : UInt64) (hrest : ∀ d ∈ rest.head?, isWordPart d = false) :
    ∃ c cs, r.numeral v.toNat = c :: cs ∧ munch c (cs ++ rest) = .token (.literal (.integer r v)) rest := by
  have hopens := opens_numeral r v.toNat
  obtain ⟨c, cs, hcs, hc⟩ := cons_of_opens_numeral hopens
  have hstop : ∀ d ∈ rest.head?, State.isNumeralPart r d = false := by
    intro d hd
    cases hp : State.isNumeralPart r d with
    | false => rfl
    | true =>
      rw [← hrest d hd, isWordPart_of_isNumeralPart hp]
  rw [hcs] at hopens
  have hnumeral := numeral_exact hopens hstop fun _ m hm => not_isMark (.inl (hrest m hm))
  rw [← hcs, Radix.value_numeral] at hnumeral
  exact ⟨c, cs, hcs, (munch_of_isDigit hc).trans hnumeral⟩

/-- Between quotes of either kind. -/
theorem denotes_escaped {quote : Char} (hquote : quote = '"' ∨ quote = '\'') (c : Char) : Denotes quote c (escaped c) := by
  unfold escaped
  split
  · exact .escape rfl
  · exact .escape rfl
  · exact .escape rfl
  · exact .escape rfl
  · rename_i hslash hdouble hsingle hline
    refine .plain hslash ?_ hline
    rcases hquote with rfl | rfl
    · exact hdouble
    · exact hsingle

theorem munch_string (s : String) (cs : List Char) :
    munch '"' (s.toList.flatMap escaped ++ ['"'] ++ cs) = .token (.literal (.string s)) cs := by
  have hwrite : ∀ c, Denotes '"' c (escaped c) := denotes_escaped (.inl rfl)
  rw [munch_body (isPaired_flatMap hwrite _) (lineFeed_notMem_flatMap hwrite _), unescape_flatMap hwrite,
    String.ofList_toList]

/-! ## One token -/

/-- The text `rest` does not go on with the text of the token. -/
def Clear (t : Token) (rest : List Char) : Prop :=
  match t with
  | .identifier _ | .keyword _ | .literal (.integer ..) => ∀ c ∈ rest.head?, isWordPart c = false
  | .operator _ => ∃ c cs, rest = c :: cs ∧ isOperatorSymbol c = false
  | .blank => ∀ c ∈ rest.head?, isBlank c = false
  | .comment | .literal .badString => ∀ c ∈ rest.head?, c = '\n'
  | .endOfInput => False
  | _ => True

theorem munch_comment (h : ∀ c ∈ rest.head?, c = '\n') : munch '#' rest = .token .comment rest := by
  cases rest with
  | nil => rfl
  | cons c cs =>
    obtain rfl : c = '\n' := h c rfl
    rfl

theorem munch_badString (h : ∀ c ∈ rest.head?, c = '\n') : munch '"' rest = .token (.literal .badString) rest := by
  cases rest with
  | nil => rfl
  | cons c cs =>
    obtain rfl : c = '\n' := h c rfl
    rfl

theorem munch_blank (h : ∀ c ∈ rest.head?, isBlank c = false) : munch ' ' rest = .token .blank rest := by
  show Munch.run [' '] isBlank ([] ++ rest) (fun _ => .blank) = _
  exact run_exact nofun h

/-- A proper token is found in front of a text that does not go on with it. -/
theorem munch_text {t : Token} (ht : t.Proper) (hclear : Clear t rest) :
    ∃ c cs, t.text = c :: cs ∧ munch c (cs ++ rest) = .token t rest := by
  cases t with
  | identifier name =>
    obtain ⟨hword, hname⟩ := ht
    obtain ⟨c, cs, hcs, hm⟩ := munch_word hword hclear
    rw [String.ofList_toList, Token.ofWord, hname] at hm
    exact ⟨c, cs, hcs, hm⟩
  | operator o => exact munch_operator ht hclear
  | keyword k =>
    obtain ⟨c, cs, hcs, hm⟩ := munch_word (isWord_spelling k) hclear
    rw [String.ofList_toList, ofWord_spelling] at hm
    exact ⟨c, cs, hcs, hm⟩
  | literal l =>
    cases l with
    | integer r v => exact munch_integer r v hclear
    | string s => exact ⟨'"', _, rfl, munch_string s rest⟩
    | badString => exact ⟨'"', [], rfl, munch_badString hclear⟩
    | char c => exact ⟨'\'', _, rfl, (denotes_escaped (.inr rfl) c).munch_char rest⟩
    | badChar => exact ⟨'\'', _, rfl, rfl⟩
  | blank => exact ⟨' ', [], rfl, munch_blank hclear⟩
  | comment => exact ⟨'#', [], rfl, munch_comment hclear⟩
  | endOfInput => exact hclear.elim
  | _ => exact ⟨_, _, rfl, rfl⟩

end Kinds

/-! ## Many tokens -/

/-- The character `c` is of the classes that texts of the token's kind start with. -/
structure Heads (t : Token) (c : Char) : Prop where
  word : isWordPart c = t.isWordlike
  operator : isOperatorSymbol c = t.isOperator
  blank : isBlank c = decide (t = .blank)
  newLine : t = .newLine → c = '\n'

theorem heads_word {t : Token} {c : Char} (ht : t.isWordlike = true) (hc : isWordPart c = true) : Heads t c := by
  obtain ⟨hoperator, hblank⟩ := disjoint_isWordPart hc
  have hne : t.isOperator = false ∧ t ≠ .blank ∧ t ≠ .newLine := by
    cases t with
    | identifier | keyword | literal => exact ⟨rfl, nofun, nofun⟩
    | _ => cases ht
  exact ⟨hc.trans ht.symm, hoperator.trans hne.1.symm, by simp [hblank, hne.2.1], fun h => absurd h hne.2.2⟩

theorem heads_integer (r : Radix) (v : UInt64) :
    ∃ c cs, r.numeral v.toNat = c :: cs ∧ Heads (.literal (.integer r v)) c := by
  obtain ⟨c, cs, hcs, hc⟩ := cons_of_opens_numeral (opens_numeral r v.toNat)
  exact ⟨c, cs, hcs, heads_word rfl (isWordPart_of_isDigit hc)⟩

theorem heads_text {t : Token} (ht : t.Proper) (hne : t ≠ .endOfInput) : ∃ c cs, t.text = c :: cs ∧ Heads t c := by
  cases t with
  | identifier name =>
    obtain ⟨c, cs, hcs, hc⟩ := ht.1.head
    exact ⟨c, cs, hcs, heads_word rfl (isWordPart_of_isWordStart hc)⟩
  | keyword k =>
    obtain ⟨c, cs, hcs, hc⟩ := (isWord_spelling k).head
    exact ⟨c, cs, hcs, heads_word rfl (isWordPart_of_isWordStart hc)⟩
  | operator o =>
    obtain ⟨c, cs, hcs⟩ := List.exists_cons_of_ne_nil ht.1
    have hc : isOperatorSymbol c = true := List.all_eq_true.mp ht.2 c (hcs ▸ List.mem_cons_self)
    obtain ⟨hword, hblank⟩ := disjoint_isOperatorSymbol hc
    exact ⟨c, cs, hcs, hword, hc, hblank, nofun⟩
  | literal l =>
    cases l with
    | integer r v => exact heads_integer r v
    | _ => exact ⟨_, _, rfl, rfl, rfl, rfl, nofun⟩
  | endOfInput => exact absurd rfl hne
  | newLine => exact ⟨_, _, rfl, rfl, rfl, rfl, fun _ => rfl⟩
  | _ => exact ⟨_, _, rfl, rfl, rfl, rfl, nofun⟩

theorem ne_endOfInput_of_spaced {t : Token} {ts : List Token} (h : Spaced (t :: ts)) : t ≠ .endOfInput := by
  rintro rfl
  cases h.1

/-- A text starts as the text of the next token does, if there is one. -/
theorem heads_flatMap {ts : List Token} (hproper : ∀ t ∈ ts, t.Proper) (hspaced : Spaced ts) :
    (ts.head? = none ∧ ts.flatMap Token.text = []) ∨
      ∃ u c cs, ts.head? = some u ∧ ts.flatMap Token.text = c :: cs ∧ Heads u c := by
  cases ts with
  | nil => exact .inl ⟨rfl, rfl⟩
  | cons u us =>
    obtain ⟨c, cs, hcs, hc⟩ := heads_text (hproper u List.mem_cons_self) (ne_endOfInput_of_spaced hspaced)
    exact .inr ⟨u, c, cs ++ us.flatMap Token.text, rfl, by rw [List.flatMap_cons, hcs, List.cons_append], hc⟩

/-- A text that starts as that of the next token does is clear of the token. -/
theorem clear_of_heads {t u : Token} {c : Char} {cs : List Char} (hends : t.endsBefore (some u) = true) (hc : Heads u c) :
    Clear t (c :: cs) := by
  have hhead : ∀ d ∈ (c :: cs).head?, d = c := by simp
  have hword : (!u.isWordlike) = true → ∀ d ∈ (c :: cs).head?, isWordPart d = false := by
    intro hu d hd
    rw [hhead d hd, hc.word]
    simpa using hu
  have hline : decide (u = .newLine) = true → ∀ d ∈ (c :: cs).head?, d = '\n' := by
    intro hu d hd
    rw [hhead d hd]
    exact hc.newLine (of_decide_eq_true hu)
  unfold Clear
  split
  · exact hword hends
  · exact hword hends
  · exact hword hends
  · exact ⟨c, cs, rfl, by rw [hc.operator]; simpa [Token.endsBefore] using hends⟩
  · intro d hd
    rw [hhead d hd, hc.blank]
    simpa [Token.endsBefore] using hends
  · exact hline hends
  · exact hline hends
  · cases hends
  · trivial

/-- Spaced tokens do not run together. -/
theorem clear_of_spaced {t : Token} {ts : List Token} (hproper : ∀ u ∈ ts, u.Proper) (h : Spaced (t :: ts)) :
    Clear t (ts.flatMap Token.text) := by
  obtain ⟨hends, hspaced⟩ := h
  rcases heads_flatMap hproper hspaced with ⟨hnext, htext⟩ | ⟨u, c, cs, hnext, htext, hc⟩
  · rw [hnext] at hends
    rw [htext]
    unfold Clear
    split <;> simp_all [Token.endsBefore]
  · rw [hnext] at hends
    rw [htext]
    exact clear_of_heads hends hc

theorem IsWord.endMark_notMem {w : List Char} (h : IsWord w) : endMark ∉ w := by
  cases w with
  | nil => exact nofun
  | cons c cs =>
    intro hm
    rcases List.mem_cons.mp hm with rfl | hm
    · cases h.1
    · cases List.all_eq_true.mp h.2 _ hm

theorem endMark_notMem_numeral (r : Radix) (n : Nat) : endMark ∉ r.numeral n := by
  intro hm
  rcases List.mem_append.mp hm with hm | hm
  · have marks : endMark ∉ r.mark := by cases r <;> decide
    exact marks hm
  · obtain ⟨d, hd, hglyph⟩ := r.mem_digits hm
    have hpart := isNumeralPart_glyph r hd
    rw [← hglyph] at hpart
    cases r <;> cases hpart

/-- Nothing that is written holds an end mark. -/
theorem endMark_notMem_text {t : Token} (ht : t.Proper) : endMark ∉ t.text := by
  cases t with
  | identifier name => exact ht.1.endMark_notMem
  | keyword k => exact (isWord_spelling k).endMark_notMem
  | operator o =>
    intro hm
    cases List.all_eq_true.mp ht.2 _ hm
  | literal l =>
    cases l with
    | integer r v => exact endMark_notMem_numeral r v.toNat
    | string s =>
      have hbody := endMark_notMem_flatMap_write (denotes_escaped (.inl rfl)) ht
      simpa [Token.text, Literal.text, endMark] using hbody
    | char c =>
      have hbody := (denotes_escaped (.inr rfl) c).endMark_notMem ht
      simpa [Token.text, Literal.text, endMark] using hbody
    | _ => simp [Token.text, Literal.text, endMark]
  | _ => simp [Token.text, endMark]

theorem endMark_notMem_flatMap {ts : List Token} (hproper : ∀ t ∈ ts, t.Proper) : endMark ∉ ts.flatMap Token.text := by
  intro hm
  obtain ⟨t, ht, hin⟩ := List.mem_flatMap.mp hm
  exact endMark_notMem_text (hproper t ht) hin

/-- A token is found in front of a text that does not go on with it, and then those of the text. -/
theorem lex_front {t : Token} {rest : List Char} (ht : t.Proper) (hclear : Clear t rest) (hrest : endMark ∉ rest) :
    lex (t.text ++ rest) = t :: lex rest := by
  obtain ⟨c, cs, hcs, hm⟩ := munch_text ht hclear
  have hend : endMark ∉ c :: (cs ++ rest) := by
    rw [← List.cons_append, ← hcs]
    exact List.not_mem_append (endMark_notMem_text ht) hrest
  rw [hcs, List.cons_append, lex_munch hend, hm, Munch.tokens]

/-- Proper tokens that do not run together are found again in their text. -/
theorem lex_text {ts : List Token} (hproper : ∀ t ∈ ts, t.Proper) (hspaced : Spaced ts) :
    lex (ts.flatMap Token.text) = ts ++ [Token.endOfInput] := by
  induction ts with
  | nil => rfl
  | cons t ts ih =>
    obtain ⟨ht, hrest⟩ := List.forall_mem_cons.mp hproper
    rw [List.flatMap_cons, lex_front ht (clear_of_spaced hrest hspaced) (endMark_notMem_flatMap hrest),
      ih hrest hspaced.2, List.cons_append]

/-- They are found again also in front of another text, if that starts as the text of a token `u` does which they do not
run together with. -/
theorem lex_text_append {ts : List Token} {u : Token} {c : Char} {cs : List Char} (hproper : ∀ t ∈ ts, t.Proper)
    (hspaced : Spaced (ts ++ [u])) (hc : Heads u c) (hend : endMark ∉ c :: cs) :
    lex (ts.flatMap Token.text ++ c :: cs) = ts ++ lex (c :: cs) := by
  induction ts with
  | nil => rfl
  | cons t ts ih =>
    obtain ⟨ht, hrest⟩ := List.forall_mem_cons.mp hproper
    obtain ⟨hends, hspaced⟩ := hspaced
    have hclear : Clear t (ts.flatMap Token.text ++ c :: cs) := by
      cases ts with
      | nil => exact clear_of_heads hends hc
      | cons v vs =>
        obtain ⟨d, ds, hds, hd⟩ := heads_text (hrest v List.mem_cons_self) (ne_endOfInput_of_spaced hspaced)
        rw [List.flatMap_cons, hds]
        exact clear_of_heads hends hd
    have hbehind : endMark ∉ ts.flatMap Token.text ++ c :: cs := List.not_mem_append (endMark_notMem_flatMap hrest) hend
    rw [List.flatMap_cons, List.append_assoc, lex_front ht hclear hbehind, ih hrest hspaced, List.cons_append]

end Parlance
