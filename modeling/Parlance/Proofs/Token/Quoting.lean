import Parlance.Proofs.Token.Shape

/-!
# Quoted literals are read as they are written

The **body** of a string literal is a text on one line whose quotes all stand behind backslashes; a backslash and the
character behind it belong together, so it is read from the left. Every body, followed by a quote, is that of one string
literal, and its value is what `unescape` makes of it (`lex_body`). Conversely a text that **denotes** a character between
quotes, an escape or the character itself, is read as this character, so a string that is written character by character
is the value of its body (`isBody_flatMap`, `unescape_flatMap`). The end mark is the only character that no literal holds.
-/

namespace Parlance

/-- Every quote stands behind a backslash that is not itself escaped, and every backslash has a character behind it. -/
def isPaired : List Char → Bool
  | [] => true
  | '\\' :: _ :: cs => isPaired cs
  | c :: cs => c != '\\' && c != '"' && isPaired cs

/-- What stands between the quotes of a string literal. -/
structure IsBody (body : List Char) : Prop where
  paired : isPaired body = true
  line : '\n' ∉ body
  proper : endMark ∉ body

/-- The text stands for the character `c` between two `quote`s: an escape does, and a character that needs none. -/
inductive Denotes (quote c : Char) : List Char → Prop where
  | escape {e : Char} (resolved : resolveEscape e = some c) : Denotes quote c ['\\', e]
  | plain (slash : c ≠ '\\') (closing : c ≠ quote) (line : c ≠ '\n') : Denotes quote c [c]

/-! ## Reading a body -/

section Body

variable {body : List Char}

/-- The first quote without a backslash closes the string, and that is the one behind the body. -/
theorem closeString_body (h : isPaired body = true) (hline : '\n' ∉ body) (rest : List Char) :
    closeString (body ++ '"' :: rest) = some (body, rest) := by
  fun_induction isPaired body with
  | case1 => rfl
  | case2 c cs ih =>
    have hcs := List.not_mem_of_not_mem_cons hline
    have hc : c ≠ '\n' := (List.ne_of_not_mem_cons hcs).symm
    rw [List.cons_append, List.cons_append, closeString, if_neg hc, ih h (List.not_mem_of_not_mem_cons hcs)]
    rfl
  | case3 c cs _ ih =>
    simp only [Bool.and_eq_true, bne_iff_ne, ne_eq] at h
    obtain ⟨⟨hslash, hquote⟩, hpaired⟩ := h
    have hc : c ≠ '\n' := (List.ne_of_not_mem_cons hline).symm
    rw [List.cons_append, closeString, ih hpaired (List.not_mem_of_not_mem_cons hline)]
    · rfl
    · exact hquote
    · exact hc
    · exact fun _ _ hescape _ => hslash hescape

theorem munch_body (h : isPaired body = true) (hline : '\n' ∉ body) (rest : List Char) :
    munch '"' (body ++ ['"'] ++ rest) = .token (.literal (.string (.ofList (unescape body)))) rest := by
  have hmunch : munch '"' (body ++ ['"'] ++ rest) = .string (body ++ '"' :: rest) := by
    rw [List.append_assoc]
    rfl
  rw [hmunch, Munch.string, closeString_body h hline]

/-- A body between two quotes is one string literal. -/
theorem lex_body (h : IsBody body) :
    lex ('"' :: (body ++ ['"'])) = [.literal (.string (.ofList (unescape body))), .endOfInput] := by
  have hend : endMark ∉ '"' :: (body ++ ['"']) := by simpa [endMark] using h.proper
  have hmunch := munch_body h.paired h.line []
  rw [List.append_nil] at hmunch
  rw [lex_munch hend, hmunch]
  rfl

end Body

/-! ## One character -/

namespace Denotes

variable {quote v : Char} {u : List Char}

theorem unescape_append (h : Denotes quote v u) (cs : List Char) : unescape (u ++ cs) = v :: unescape cs := by
  cases h with
  | escape resolved => simp [unescape, resolved]
  | plain slash =>
    rw [List.singleton_append, unescape]
    exact fun _ _ h _ => slash h

theorem isPaired_append (h : Denotes '"' v u) (cs : List Char) : isPaired (u ++ cs) = isPaired cs := by
  cases h with
  | escape => rfl
  | plain slash closing =>
    rw [List.singleton_append, isPaired]
    · simp [slash, closing]
    · exact fun _ _ h _ => slash h

theorem firstUnit_append (h : Denotes '\'' v u) (cs : List Char) : firstUnit (u ++ cs) = some (some v, cs) := by
  cases h with
  | @escape e resolved =>
    have he : e ≠ '\n' := by
      rintro rfl
      cases resolved
    rw [List.cons_append, List.singleton_append, firstUnit, if_neg he, resolved]
  | plain slash closing line =>
    rw [List.singleton_append, firstUnit]
    · exact closing
    · exact line
    · exact fun _ _ h _ => slash h
    · exact fun h _ => slash h

theorem lineFeed_notMem (h : Denotes quote v u) : '\n' ∉ u := by
  cases h with
  | @escape e resolved =>
    have he : '\n' ≠ e := by
      rintro rfl
      cases resolved
    simpa using he
  | plain _ _ line => simpa using line.symm

theorem endMark_notMem (h : Denotes quote v u) (hv : v ≠ endMark) : endMark ∉ u := by
  cases h with
  | @escape e resolved =>
    have he : endMark ≠ e := by
      rintro rfl
      cases resolved
    simpa [endMark] using he
  | plain => simpa using hv.symm

theorem munch_char (h : Denotes '\'' v u) (rest : List Char) :
    munch '\'' (u ++ ['\''] ++ rest) = .token (.literal (.char v)) rest := by
  show Munch.char _ = _
  rw [List.append_assoc, List.singleton_append, Munch.char, h.firstUnit_append]
  rfl

/-- What denotes a character, between two quotes, is one character literal. -/
theorem lex_char (h : Denotes '\'' v u) (hv : v ≠ endMark) :
    lex ('\'' :: (u ++ ['\''])) = [.literal (.char v), .endOfInput] := by
  have hend : endMark ∉ '\'' :: (u ++ ['\'']) := by simpa [endMark] using h.endMark_notMem hv
  have hmunch := h.munch_char []
  rw [List.append_nil] at hmunch
  rw [lex_munch hend, hmunch]
  rfl

end Denotes

/-! ## Character by character -/

section Writer

variable {quote : Char} {write : Char → List Char} {s : List Char}

/-- A string is what its written form stands for. -/
theorem unescape_flatMap (hwrite : ∀ c, Denotes quote c (write c)) (s : List Char) : unescape (s.flatMap write) = s := by
  induction s with
  | nil => rfl
  | cons c s ih => rw [List.flatMap_cons, (hwrite c).unescape_append, ih]

theorem isPaired_flatMap (hwrite : ∀ c, Denotes '"' c (write c)) (s : List Char) : isPaired (s.flatMap write) = true := by
  induction s with
  | nil => rfl
  | cons c s ih => rw [List.flatMap_cons, (hwrite c).isPaired_append, ih]

theorem lineFeed_notMem_flatMap (hwrite : ∀ c, Denotes quote c (write c)) (s : List Char) : '\n' ∉ s.flatMap write := by
  intro hm
  obtain ⟨c, -, hc⟩ := List.mem_flatMap.mp hm
  exact (hwrite c).lineFeed_notMem hc

theorem endMark_notMem_flatMap_write (hwrite : ∀ c, Denotes quote c (write c)) (hs : endMark ∉ s) :
    endMark ∉ s.flatMap write := by
  intro hm
  obtain ⟨c, hc, hin⟩ := List.mem_flatMap.mp hm
  exact (hwrite c).endMark_notMem (fun he => hs (he ▸ hc)) hin

/-- The written form of a string is a body. -/
theorem isBody_flatMap (hwrite : ∀ c, Denotes '"' c (write c)) (hs : endMark ∉ s) : IsBody (s.flatMap write) :=
  ⟨isPaired_flatMap hwrite s, lineFeed_notMem_flatMap hwrite s, endMark_notMem_flatMap_write hwrite hs⟩

end Writer

/-- A character between two `quote`s: the quote, the backslash and the line feed are escaped, and any other character stands
for itself. -/
def written (quote c : Char) : List Char :=
  if c = '\n' then ['\\', 'n'] else if c = '\\' ∨ c = quote then ['\\', c] else [c]

theorem denotes_written {quote : Char} (hquote : resolveEscape quote = some quote) (c : Char) :
    Denotes quote c (written quote c) := by
  by_cases hline : c = '\n'
  · rw [written, if_pos hline, hline]
    exact .escape rfl
  by_cases hescape : c = '\\' ∨ c = quote
  · rw [written, if_neg hline, if_pos hescape]
    rcases hescape with rfl | rfl
    · exact .escape rfl
    · exact .escape hquote
  · rw [written, if_neg hline, if_neg hescape]
    exact .plain (fun h => hescape (.inl h)) (fun h => hescape (.inr h)) hline

/-! ## The values of literals -/

/-- No literal of any text holds an end mark. -/
theorem proper_of_literal_mem_lex {s : List Char} {l : Literal} (h : .literal l ∈ lex s) : l.Proper := by
  rcases proper_or_operator_of_mem_lex h with hproper | ⟨o, hoperator, -⟩
  · exact hproper
  · cases hoperator

/-- **Quoted literals** stand for what their bodies are unescaped to, and can stand for every string and every character
without end marks: escape the quote, the backslash and the line feed. No text has a literal with an end mark. -/
theorem lex_quoted :
    (∀ body, IsBody body → lex ('"' :: (body ++ ['"'])) = [.literal (.string (.ofList (unescape body))), .endOfInput]) ∧
    (∀ v : List Char, endMark ∉ v → IsBody (v.flatMap (written '"')) ∧ unescape (v.flatMap (written '"')) = v) ∧
    (∀ c, c ≠ endMark → lex ('\'' :: (written '\'' c ++ ['\''])) = [.literal (.char c), .endOfInput]) ∧
    (∀ v : String, (∃ s, .literal (.string v) ∈ lex s) ↔ endMark ∉ v.toList) ∧
    ∀ c, (∃ s, .literal (.char c) ∈ lex s) ↔ c ≠ endMark := by
  have hstring : ∀ c, Denotes '"' c (written '"' c) := denotes_written rfl
  have hchar : ∀ c, Denotes '\'' c (written '\'' c) := denotes_written rfl
  refine ⟨fun _ => lex_body, fun v hv => ⟨isBody_flatMap hstring hv, unescape_flatMap hstring v⟩,
    fun c => (hchar c).lex_char, fun v => ⟨?_, fun hv => ?_⟩, fun c => ⟨?_, fun hc => ?_⟩⟩
  · rintro ⟨s, hs⟩
    exact proper_of_literal_mem_lex hs
  · have hlex := lex_body (isBody_flatMap hstring hv)
    rw [unescape_flatMap hstring, String.ofList_toList] at hlex
    exact ⟨_, by rw [hlex]; exact List.mem_cons_self⟩
  · rintro ⟨s, hs⟩
    exact proper_of_literal_mem_lex hs
  · exact ⟨_, by rw [(hchar c).lex_char hc]; exact List.mem_cons_self⟩

/-- A body with escapes of the table and outside it, written forms of all kinds, and values that there are. -/
theorem lex_quoted_escapes :
    lex "\"\\q\\\\\\\"'\t\\n\"".toList = [.literal (.string "\\q\\\"'\t\n"), .endOfInput] ∧
    (IsBody "\\\\'\\\"\\n\r\t".toList ∧ unescape "\\\\'\\\"\\n\r\t".toList = "\\'\"\n\r\t".toList) ∧
    lex "'\"'".toList = [.literal (.char '"'), .endOfInput] ∧
    lex "'\\''".toList = [.literal (.char '\''), .endOfInput] ∧
    (∃ s, .literal (.string "\r\\") ∈ lex s) ∧ ¬∃ s, .literal (.char '\x00') ∈ lex s :=
  ⟨lex_quoted.1 "\\q\\\\\\\"'\t\\n".toList ⟨by decide, by decide, by decide⟩,
    lex_quoted.2.1 "\\'\"\n\r\t".toList (by decide),
    lex_quoted.2.2.1 '"' (by decide),
    lex_quoted.2.2.1 '\'' (by decide),
    (lex_quoted.2.2.2.1 "\r\\").mpr (by decide),
    fun h => (lex_quoted.2.2.2.2 '\x00').mp h rfl⟩

end Parlance
