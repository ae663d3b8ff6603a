import Parlance.Token.Automaton

/-!
# The scanner of longest matches

Tokens without an automaton: at every place of a text, its next character fixes the kind of token, and the token is the
**longest** run that this kind allows. `munch` finds the token at the front of a text, `scan` does so until the text is
used up. An operator that touches the end of the text is never finished, and nothing comes after it, not even the end
token.

* a token takes at least one character, and what stands behind it is an end of the text (`munch_suffix`).
-/

namespace Parlance

/-- What stands at the front of a text. -/
inductive Munch where
  /-- A token, and the text behind it. -/
  | token (token : Token) (rest : List Char)
  /-- A character that is no part of any token, and the text behind it. -/
  | nothing (rest : List Char)
  /-- An operator that touches the end of the text. -/
  | unfinished

/-! ## Quoted literals -/

/-- The body of a string up to its closing quote, and the text behind the quote; `none` where the line ends first. A
backslash and the character after it belong together. -/
def closeString : List Char → Option (List Char × List Char)
  | [] => none
  | '"' :: cs => some ([], cs)
  | '\n' :: _ => none
  | '\\' :: c :: cs => if c = '\n' then none else (closeString cs).map fun s => ('\\' :: c :: s.1, s.2)
  | c :: cs => (closeString cs).map fun s => (c :: s.1, s.2)

/-- The text that the body of a string stands for. An escape outside the table stands for itself. -/
def unescape : List Char → List Char
  | [] => []
  | '\\' :: c :: cs => (match resolveEscape c with
    | some v => [v]
    | none => ['\\', c]) ++ unescape cs
  | c :: cs => c :: unescape cs

/-- The rest of the line, its line feed included, and of the text. -/
def afterLine (cs : List Char) : List Char := cs.dropWhile fun c => !isLineFeed c

/-- The first character of a character literal, or the first escape, with the text behind it. An escape outside the table
has no value. `none` where there is neither on the line. -/
def firstUnit : List Char → Option (Option Char × List Char)
  | [] | '\'' :: _ | '\n' :: _ => none
  | '\\' :: c :: cs => if c = '\n' then none else some (resolveEscape c, cs)
  | '\\' :: [] => none
  | c :: cs => some (some c, cs)

/-- The text behind a malformed character literal: behind the next quote on the line, or else from the end of the line. -/
def afterQuote (cs : List Char) : List Char :=
  match cs.dropWhile fun c => !(c == '\'' || isLineFeed c) with
  | '\'' :: rest => rest
  | rest => rest

/-! ## One token -/

namespace Munch

/-- The longest run of characters of a class behind the characters `front`. -/
def run (front : List Char) (part : Char → Bool) (cs : List Char) (toToken : List Char → Token) : Munch :=
  token (toToken (front ++ cs.takeWhile part)) (cs.dropWhile part)

def word (c : Char) (cs : List Char) : Munch := run [c] isWordPart cs fun w => .ofWord (.ofList w)

/-- A zero and a mark make a binary or hexadecimal numeral, whatever follows them; any other one is decimal. -/
def numeral (c : Char) (cs : List Char) : Munch :=
  match c, cs with
  | '0', m :: ds =>
    if isBinaryMark m then digits .binary ['0', m] ds
    else if isHexadecimalMark m then digits .hexadecimal ['0', m] ds
    else digits .decimal ['0'] (m :: ds)
  | c, cs => digits .decimal [c] cs
where
  digits (r : Radix) (front cs : List Char) : Munch :=
    run front (State.isNumeralPart r) cs fun w => .literal (.integer r (r.value w))

def operator (c : Char) (cs : List Char) : Munch :=
  match cs.dropWhile isOperatorSymbol with
  | [] => unfinished
  | rest => token (.operator (.ofList (c :: cs.takeWhile isOperatorSymbol))) rest

def string (cs : List Char) : Munch :=
  match closeString cs with
  | some (body, rest) => token (.literal (.string (.ofList (unescape body)))) rest
  | none => token (.literal .badString) (afterLine cs)

/-- A character literal behind its first character or escape: one that has a value and is followed by the closing quote is
well formed. -/
def closeChar : Option Char → List Char → Munch
  | some v, '\'' :: rest => token (.literal (.char v)) rest
  | _, cs => token (.literal .badChar) (afterQuote cs)

def char (cs : List Char) : Munch :=
  match firstUnit cs with
  | some (v, rest) => closeChar v rest
  | none => closeChar none cs

end Munch

/-- What stands at the front of the text `c :: cs`. -/
def munch (c : Char) (cs : List Char) : Munch :=
  if isWordStart c then .word c cs
  else if isDigit c then .numeral c cs
  else if isOperatorSymbol c then .operator c cs
  else if isBlank c then .run [c] isBlank cs fun _ => .blank
  else match c with
    | '#' => .token .comment (afterLine cs)
    | '\'' => .char cs
    | '"' => .string cs
    | '(' => .token .leftParen cs
    | ')' => .token .rightParen cs
    | '{' => .token .leftCurl cs
    | '}' => .token .rightCurl cs
    | ':' => .token .colon cs
    | ',' => .token .comma cs
    | '\r' => .nothing cs
    | '\n' => .token .newLine cs
    | _ => .token .unknown cs

/-! ## What a token leaves -/

/-- The body of a string, its closing quote and the text behind it are the whole text. -/
theorem closeString_eq {cs body rest : List Char} (h : closeString cs = some (body, rest)) : cs = body ++ '"' :: rest := by
  fun_induction closeString cs generalizing body with
  | case1 => cases h
  | case2 cs =>
    cases h
    rfl
  | case3 => cases h
  | case4 => cases h
  | case5 c cs _ ih =>
    obtain ⟨s, hs, he⟩ := Option.map_eq_some_iff.mp h
    cases he
    rw [ih hs, List.cons_append, List.cons_append]
  | case6 c cs _ _ _ ih =>
    obtain ⟨s, hs, he⟩ := Option.map_eq_some_iff.mp h
    cases he
    rw [ih hs, List.cons_append]

theorem firstUnit_suffix {cs rest : List Char} {v : Option Char} (h : firstUnit cs = some (v, rest)) : rest <:+ cs := by
  unfold firstUnit at h
  split at h
  · cases h
  · cases h
  · cases h
  · split at h
    · cases h
    · cases h
      exact (List.suffix_cons _ _).trans (List.suffix_cons _ _)
  · cases h
  · cases h
    exact List.suffix_cons _ _

theorem afterQuote_suffix (cs : List Char) : afterQuote cs <:+ cs := by
  have hdrop := List.dropWhile_suffix (fun c => !(c == '\'' || isLineFeed c)) (l := cs)
  unfold afterQuote
  split
  · rename_i rest h
    rw [h] at hdrop
    exact (List.suffix_cons _ _).trans hdrop
  · exact hdrop

namespace Munch

/-- The text behind. -/
def rest : Munch → List Char
  | token _ rest => rest
  | nothing rest => rest
  | unfinished => []

theorem numeral_suffix (c : Char) (cs : List Char) : (numeral c cs).rest <:+ cs := by
  have hrun : ∀ r front ds, (numeral.digits r front ds).rest <:+ ds := fun _ _ _ => List.dropWhile_suffix _
  unfold numeral
  split
  · split
    · exact (hrun _ _ _).trans (List.suffix_cons _ _)
    · split
      · exact (hrun _ _ _).trans (List.suffix_cons _ _)
      · exact hrun _ _ _
  · exact hrun _ _ _

theorem operator_suffix (c : Char) (cs : List Char) : (operator c cs).rest <:+ cs := by
  have hdrop := List.dropWhile_suffix isOperatorSymbol (l := cs)
  unfold operator
  split
  · exact List.nil_suffix
  · exact hdrop

theorem string_suffix (cs : List Char) : (string cs).rest <:+ cs := by
  unfold string
  split
  · rename_i body behind h
    rw [closeString_eq h]
    exact (List.suffix_cons _ _).trans (List.suffix_append body _)
  · exact List.dropWhile_suffix _

theorem closeChar_suffix (v : Option Char) (cs : List Char) : (closeChar v cs).rest <:+ cs := by
  unfold closeChar
  split
  · exact List.suffix_cons _ _
  · exact afterQuote_suffix _

theorem char_suffix (cs : List Char) : (char cs).rest <:+ cs := by
  unfold char
  split
  · rename_i h
    exact (closeChar_suffix _ _).trans (firstUnit_suffix h)
  · exact closeChar_suffix _ _

end Munch

/-- A token takes its first character at least, and what stands behind it is an end of the text. -/
theorem munch_suffix (c : Char) (cs : List Char) : (munch c cs).rest <:+ cs := by
  unfold munch
  split
  · exact List.dropWhile_suffix _
  split
  · exact Munch.numeral_suffix c cs
  split
  · exact Munch.operator_suffix c cs
  split
  · exact List.dropWhile_suffix _
  split
  · exact List.dropWhile_suffix _
  · exact Munch.char_suffix cs
  · exact Munch.string_suffix cs
  all_goals exact List.suffix_refl cs

/-! ## The scanner -/

/-- The tokens of a text of which this stands at the front, where `later` tells those of the text behind it. -/
def Munch.tokens (later : List Char → List Token) : Munch → List Token
  | token t rest => t :: later rest
  | nothing rest => later rest
  | unfinished => []

/-- What holds of a text as soon as it holds behind the token at its front holds of every text. -/
theorem munch_induction {P : List Char → Prop} (nil : P []) (cons : ∀ c cs, P (munch c cs).rest → P (c :: cs))
    (text : List Char) : P text := by
  induction hn : text.length using Nat.strongRecOn generalizing text with
  | ind n ih =>
    subst hn
    cases text with
    | nil => exact nil
    | cons c cs =>
      have hshort : (munch c cs).rest.length < (c :: cs).length := Nat.lt_succ_of_le (munch_suffix c cs).length_le
      exact cons c cs (ih _ hshort _ rfl)

/-- The tokens of a text, taken from its front as long as there is text, and the end token. -/
def scan : List Char → List Token
  | [] => [.endOfInput]
  | c :: cs =>
    match _h : munch c cs with
    | .token t rest => t :: scan rest
    | .nothing rest => scan rest
    | .unfinished => []
termination_by text => text.length
decreasing_by
  all_goals
    have hlen := (munch_suffix c cs).length_le
    rw [_h] at hlen
    exact Nat.lt_succ_of_le hlen

theorem scan_nil : scan [] = [.endOfInput] := by
  rw [scan]

/-- The text is scanned on behind the token at its front. -/
theorem scan_cons (c : Char) (cs : List Char) : scan (c :: cs) = (munch c cs).tokens scan := by
  rw [scan]
  split <;> rename_i h <;> rw [h, Munch.tokens]

end Parlance
