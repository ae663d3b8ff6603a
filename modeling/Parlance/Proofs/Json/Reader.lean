import Parlance.Json
import Parlance.Proofs.Token.Writing

/-!
# Reading JSON text

A reader for the texts of `Json.write`: the text is split into **lexemes**, which leaves out the white space between them,
and the lexemes are put together to a value one by one, with the arrays and objects that are not closed yet on a stack. It
refuses what the writer never writes, such as a control character in a string or a missing comma.

* `lexemes?_writeThen`: the lexemes of a written value do not depend on its layout;
* `Assembly.foldlM_lexemes`: a value is put together again from its lexemes, whatever stands around it;
* `read?_writeThen`: so the text of a value is read as that value.
-/

namespace Parlance.Json

/-! ## Lexemes -/

/-- What a text consists of, apart from white space. -/
inductive Lexeme where
  | number (value : Nat)
  | string (value : String)
  | openArray
  | closeArray
  | openObject
  | closeObject
  | comma
  | colon

/-- The character that a backslash and a letter or sign stand for. -/
def resolve? : Char → Option Char
  | '"' => some '"'
  | '\\' => some '\\'
  | 'b' => some '\x08'
  | 'f' => some '\x0c'
  | 'n' => some '\n'
  | 'r' => some '\r'
  | 't' => some '\t'
  | _ => none

/-- The control character with a number of two hexadecimal digits. -/
def control? (high low : Char) : Option Char :=
  match Radix.hexadecimal.digit? high, Radix.hexadecimal.digit? low with
  | some h, some l => some (.ofNat (16 * h + l))
  | _, _ => none

/-- One more character in front of those of a string. -/
def prepend (c : Char) (s : Option (List Char × List Char)) : Option (List Char × List Char) :=
  s.map fun s => (c :: s.1, s.2)

theorem length_of_prepend {n : Nat} {c : Char} {r : Option (List Char × List Char)} {s rest : List Char}
    (hr : ∀ {t}, r = some (t, rest) → rest.length < n) (h : prepend c r = some (s, rest)) : rest.length < n := by
  obtain ⟨⟨t, rest'⟩, ht, heq⟩ := Option.map_eq_some_iff.mp h
  cases heq
  exact hr ht

/-- The characters of a string up to its closing quote, and the text behind the quote. -/
def unquote? : List Char → Option (List Char × List Char)
  | [] => none
  | '"' :: cs => some ([], cs)
  | '\\' :: 'u' :: '0' :: '0' :: high :: low :: cs => (control? high low).bind fun c => prepend c (unquote? cs)
  | '\\' :: c :: cs => (resolve? c).bind fun c => prepend c (unquote? cs)
  | c :: cs => if c.toNat < 0x20 then none else prepend c (unquote? cs)

theorem unquote?_length {cs s rest : List Char} (h : unquote? cs = some (s, rest)) : rest.length < cs.length := by
  fun_induction unquote? cs generalizing s with
  | case1 => cases h
  | case2 cs =>
    cases h
    exact Nat.lt_succ_self _
  | case3 high low cs ih =>
    obtain ⟨_, -, h⟩ := Option.bind_eq_some_iff.mp h
    have := length_of_prepend ih h
    simp only [List.length_cons]
    omega
  | case4 c cs _ ih =>
    obtain ⟨_, -, h⟩ := Option.bind_eq_some_iff.mp h
    have := length_of_prepend ih h
    simp only [List.length_cons]
    omega
  | case5 => cases h
  | case6 c cs _ _ _ _ ih => exact Nat.lt_succ_of_lt (length_of_prepend ih h)

/-- The lexemes of one sign. -/
def sign? : Char → Option Lexeme
  | '[' => some .openArray
  | ']' => some .closeArray
  | '{' => some .openObject
  | '}' => some .closeObject
  | ',' => some .comma
  | ':' => some .colon
  | _ => none

def lexemes? : List Char → Option (List Lexeme)
  | [] => some []
  | c :: cs =>
    if c = ' ' ∨ c = '\n' then lexemes? cs
    else if c = '"' then
      match _ : unquote? cs with
      | some (s, rest) => (lexemes? rest).map (.string (.ofList s) :: ·)
      | none => none
    else if isDigit c then
      (lexemes? (cs.dropWhile isDigit)).map (.number (Radix.decimal.natural (c :: cs.takeWhile isDigit)) :: ·)
    else (sign? c).bind fun t => (lexemes? cs).map (t :: ·)
termination_by cs => cs.length
decreasing_by
  · exact Nat.lt_succ_self _
  · exact Nat.lt_succ_of_lt (unquote?_length ‹_›)
  · exact Nat.lt_succ_of_le (List.dropWhile_suffix _).length_le
  · exact Nat.lt_succ_self _

/-! ### Strings -/

theorem digit?_hexDigit {d : Nat} (h : d < 16) : Radix.hexadecimal.digit? (hexDigit d) = some d := by
  have all : ∀ d < 16, Radix.hexadecimal.digit? (hexDigit d) = some d := by decide
  exact all d h

/-- A written character is read as that character. -/
theorem unquote?_escaped (c : Char) (cs : List Char) : unquote? (escaped c ++ cs) = prepend c (unquote? cs) := by
  unfold escaped
  -- the characters with an escape of their own
  iterate 7
    split
    · subst_vars
      rfl
  split
  · -- two digits are enough for a control character
    have hhigh := digit?_hexDigit (show c.toNat / 16 < 16 by omega)
    have hlow := digit?_hexDigit (show c.toNat % 16 < 16 by omega)
    have hc : Char.ofNat (16 * (c.toNat / 16) + c.toNat % 16) = c := by
      rw [Nat.div_add_mod, Char.ofNat_toNat]
    simp [unquote?, control?, hhigh, hlow, hc]
  · rename_i hquote hslash _ _ _ _ _ hcontrol
    rw [List.singleton_append, unquote?]
    · rw [if_neg hcontrol]
    · exact hquote
    · exact fun _ _ _ h _ => hslash h
    · exact fun _ _ h _ => hslash h

theorem unquote?_foldr (s : List Char) (rest : List Char) :
    unquote? (s.foldr (fun c tail => escaped c ++ tail) ('"' :: rest)) = some (s, rest) := by
  induction s with
  | nil => rfl
  | cons c s ih =>
    rw [List.foldr_cons, unquote?_escaped, ih]
    rfl

theorem lexemes?_stringThen (s : String) (rest : List Char) :
    lexemes? (stringThen s rest) = (lexemes? rest).map (.string s :: ·) := by
  have hbody := unquote?_foldr s.toList rest
  rw [stringThen, lexemes?]
  split
  · rename_i h
    simp at h
  rw [if_pos rfl]
  split
  · rename_i t rest' h
    rw [hbody] at h
    cases h
    rw [String.ofList_toList]
  · rename_i h
    rw [hbody] at h
    cases h

/-! ### White space, signs and numbers -/

theorem lexemes?_space {c : Char} (h : c = ' ' ∨ c = '\n') (cs : List Char) : lexemes? (c :: cs) = lexemes? cs := by
  rw [lexemes?, if_pos h]

theorem lexemes?_breakThen (layout : Layout) (depth : Nat) (rest : List Char) :
    lexemes? (layout.breakThen depth rest) = lexemes? rest := by
  have hspaces : ∀ n, lexemes? (List.replicate n ' ' ++ rest) = lexemes? rest := by
    intro n
    induction n with
    | zero => rfl
    | succ n ih =>
      rw [List.replicate_succ, List.cons_append, lexemes?_space (.inl rfl), ih]
  cases layout with
  | compact => rfl
  | pretty => rw [Layout.breakThen, lexemes?_space (.inr rfl), hspaces]

theorem lexemes?_sign {c : Char} {t : Lexeme} (h : sign? c = some t) (cs : List Char) :
    lexemes? (c :: cs) = (lexemes? cs).map (t :: ·) := by
  unfold sign? at h
  split at h <;> cases h
  all_goals
    rw [lexemes?, if_neg (by decide), if_neg (by decide), if_neg (by decide)]
    rfl

/-- No digit stands at the front of the text. -/
def NoDigit (rest : List Char) : Prop := ∀ c ∈ rest.head?, isDigit c = false

theorem lexemes?_digits (n : Nat) {rest : List Char} (h : NoDigit rest) :
    lexemes? (Radix.decimal.digitsThen n rest) = (lexemes? rest).map (.number n :: ·) := by
  rw [Radix.digitsThen_eq]
  have hall : ∀ c ∈ Radix.decimal.digits n, isDigit c = true := by
    intro c hc
    obtain ⟨d, hd, rfl⟩ := Radix.decimal.mem_digits hc
    exact isDigit_glyph hd
  have hvalue := Radix.decimal.natural_digits n
  cases hdigits : Radix.decimal.digits n with
  | nil => exact absurd hdigits (Radix.decimal.digits_ne_nil n)
  | cons c cs =>
    rw [hdigits] at hall hvalue
    obtain ⟨hc, hcs⟩ := List.forall_mem_cons.mp hall
    have hspace : ¬(c = ' ' ∨ c = '\n') := by
      rintro (rfl | rfl)
      · cases hc
      · cases hc
    have hquote : c ≠ '"' := by
      rintro rfl
      cases hc
    rw [List.cons_append, lexemes?, if_neg hspace, if_neg hquote, if_pos hc, takeWhile_run hcs h, dropWhile_run hcs h,
      hvalue]

/-! ## The lexemes of a value -/

mutual

def lexemes : Json → List Lexeme
  | number n => [.number n]
  | string s => [.string s]
  | array [] => [.openArray, .closeArray]
  | array (i :: is) => .openArray :: (i.lexemes ++ (moreItems is ++ [.closeArray]))
  | object [] => [.openObject, .closeObject]
  | object ((k, v) :: ms) => .openObject :: .string k :: .colon :: (v.lexemes ++ (moreMembers ms ++ [.closeObject]))

/-- The items after the first. -/
def moreItems : List Json → List Lexeme
  | [] => []
  | i :: is => .comma :: (i.lexemes ++ moreItems is)

/-- The members after the first. -/
def moreMembers : List (String × Json) → List Lexeme
  | [] => []
  | (k, v) :: ms => .comma :: .string k :: .colon :: (v.lexemes ++ moreMembers ms)

end

section Written

variable (layout : Layout)

theorem noDigit_breakThen (depth : Nat) {rest : List Char} (h : NoDigit rest) : NoDigit (layout.breakThen depth rest) := by
  cases layout with
  | compact => exact h
  | pretty =>
    intro c hc
    cases hc
    rfl

theorem noDigit_itemsThen (depth : Nat) (is : List Json) {rest : List Char} (h : NoDigit rest) :
    NoDigit (itemsThen layout depth is rest) := by
  cases is with
  | nil => exact h
  | cons i is =>
    intro c hc
    cases hc
    rfl

theorem noDigit_membersThen (depth : Nat) (ms : List (String × Json)) {rest : List Char} (h : NoDigit rest) :
    NoDigit (membersThen layout depth ms rest) := by
  cases ms with
  | nil => exact h
  | cons m ms =>
    intro c hc
    cases hc
    rfl

theorem noDigit_close (depth : Nat) {c : Char} (hc : isDigit c = false) (rest : List Char) :
    NoDigit (layout.breakThen depth (c :: rest)) := by
  refine noDigit_breakThen layout depth ?_
  intro d hd
  cases hd
  exact hc

theorem lexemes?_colonThen (rest : List Char) : lexemes? (layout.colonThen rest) = (lexemes? rest).map (.colon :: ·) := by
  cases layout with
  | compact => exact lexemes?_sign rfl rest
  | pretty => rw [Layout.colonThen, lexemes?_sign rfl, lexemes?_space (.inl rfl)]

mutual

/-- The lexemes of a written value, in either layout and at any depth. -/
theorem lexemes?_writeThen : ∀ (j : Json) (depth : Nat) {rest : List Char}, NoDigit rest →
    lexemes? (writeThen layout depth j rest) = (lexemes? rest).map (j.lexemes ++ ·)
  | number n, _, _, h => lexemes?_digits n h
  | string s, _, rest, _ => lexemes?_stringThen s rest
  | array [], _, rest, _ => by
    rw [writeThen, lexemes?_sign rfl, lexemes?_sign rfl, Option.map_map]
    rfl
  | array (i :: is), depth, rest, _ => by
    have hclose := noDigit_close layout depth (show isDigit ']' = false from rfl) rest
    have hi := lexemes?_writeThen i (depth + 1) (noDigit_itemsThen layout (depth + 1) is hclose)
    have his := lexemes?_itemsThen is (depth + 1) hclose
    rw [writeThen, lexemes?_sign rfl, lexemes?_breakThen, hi, his, lexemes?_breakThen, lexemes?_sign rfl]
    simp only [Option.map_map, Function.comp_def, lexemes, List.cons_append, List.append_assoc, List.nil_append]
  | object [], _, rest, _ => by
    rw [writeThen, lexemes?_sign rfl, lexemes?_sign rfl, Option.map_map]
    rfl
  | object ((k, v) :: ms), depth, rest, _ => by
    have hclose := noDigit_close layout depth (show isDigit '}' = false from rfl) rest
    have hv := lexemes?_writeThen v (depth + 1) (noDigit_membersThen layout (depth + 1) ms hclose)
    have hms := lexemes?_membersThen ms (depth + 1) hclose
    rw [writeThen, lexemes?_sign rfl, lexemes?_breakThen, lexemes?_stringThen, lexemes?_colonThen, hv, hms,
      lexemes?_breakThen, lexemes?_sign rfl]
    simp only [Option.map_map, Function.comp_def, lexemes, List.cons_append, List.append_assoc, List.nil_append]

theorem lexemes?_itemsThen : ∀ (is : List Json) (depth : Nat) {rest : List Char}, NoDigit rest →
    lexemes? (itemsThen layout depth is rest) = (lexemes? rest).map (moreItems is ++ ·)
  | [], _, rest, _ => by
    rw [itemsThen]
    simp [moreItems]
  | i :: is, depth, rest, h => by
    have hi := lexemes?_writeThen i depth (noDigit_itemsThen layout depth is h)
    rw [itemsThen, lexemes?_sign rfl, lexemes?_breakThen, hi, lexemes?_itemsThen is depth h]
    simp only [Option.map_map, Function.comp_def, moreItems, List.cons_append, List.append_assoc]

theorem lexemes?_membersThen : ∀ (ms : List (String × Json)) (depth : Nat) {rest : List Char}, NoDigit rest →
    lexemes? (membersThen layout depth ms rest) = (lexemes? rest).map (moreMembers ms ++ ·)
  | [], _, rest, _ => by
    rw [membersThen]
    simp [moreMembers]
  | (k, v) :: ms, depth, rest, h => by
    have hv := lexemes?_writeThen v depth (noDigit_membersThen layout depth ms h)
    rw [membersThen, lexemes?_sign rfl, lexemes?_breakThen, lexemes?_stringThen, lexemes?_colonThen, hv,
      lexemes?_membersThen ms depth h]
    simp only [Option.map_map, Function.comp_def, moreMembers, List.cons_append, List.append_assoc]

end

end Written

/-! ## Values -/

/-- An array or an object whose end is still to come, with what it holds so far, the last one first. -/
inductive Frame where
  | array (items : List Json)
  | object (members : List (String × Json)) (key : String)

/-- How far a value is put together: what may stand next, inside which arrays and objects, the innermost first. -/
inductive Assembly where
  /-- A value stands next. -/
  | value (around : List Frame)
  /-- The first item of an array stands next, or the array is empty. -/
  | items (around : List Frame)
  /-- The first member of an object stands next, or the object is empty. -/
  | members (around : List Frame)
  /-- A further member stands next. -/
  | name (before : List (String × Json)) (around : List Frame)
  /-- The colon behind a name stands next. -/
  | colon (before : List (String × Json)) (key : String) (around : List Frame)
  /-- A value is complete. -/
  | complete (value : Json) (around : List Frame)

namespace Assembly

/-- The first lexeme of a value. -/
def begin? (around : List Frame) : Lexeme → Option Assembly
  | .number n => some (complete (.number n) around)
  | .string s => some (complete (.string s) around)
  | .openArray => some (items around)
  | .openObject => some (members around)
  | _ => none

def step? : Assembly → Lexeme → Option Assembly
  | value around, t => begin? around t
  | items around, .closeArray => some (complete (.array []) around)
  | items around, t => begin? (.array [] :: around) t
  | members around, .closeObject => some (complete (.object []) around)
  | members around, .string k => some (colon [] k around)
  | name ms around, .string k => some (colon ms k around)
  | colon ms k around, .colon => some (value (.object ms k :: around))
  | complete j (.array is :: around), .comma => some (value (.array (j :: is) :: around))
  | complete j (.array is :: around), .closeArray => some (complete (.array (j :: is).reverse) around)
  | complete j (.object ms k :: around), .comma => some (name ((k, j) :: ms) around)
  | complete j (.object ms k :: around), .closeObject => some (complete (.object ((k, j) :: ms).reverse) around)
  | _, _ => none

/-- The value that is complete with nothing around it. -/
def result? : Assembly → Option Json
  | complete j [] => some j
  | _ => none

/-- A value is never taken for the end of the array that starts with it. -/
theorem foldlM_items (j : Json) (around : List Frame) :
    j.lexemes.foldlM step? (items around) = j.lexemes.foldlM step? (value (.array [] :: around)) := by
  match j with
  | .number _ | .string _ | .array [] | .array (_ :: _) | .object [] | .object (_ :: _) =>
    rw [lexemes]
    rfl

mutual

/-- The lexemes of a value are put together to that value, whatever stands around it. -/
theorem foldlM_lexemes : ∀ (j : Json) (around : List Frame),
    j.lexemes.foldlM step? (value around) = some (complete j around)
  | .number n, _ => by
    rw [lexemes]
    rfl
  | .string s, _ => by
    rw [lexemes]
    rfl
  | .array [], _ => by
    rw [lexemes]
    rfl
  | .array (i :: is), around => by
    rw [lexemes]
    show (i.lexemes ++ (moreItems is ++ [Lexeme.closeArray])).foldlM step? (items around) = _
    rw [List.foldlM_append, foldlM_items, foldlM_lexemes i]
    exact foldlM_moreItems is i [] around
  | .object [], _ => by
    rw [lexemes]
    rfl
  | .object ((k, v) :: ms), around => by
    rw [lexemes]
    show (v.lexemes ++ (moreMembers ms ++ [Lexeme.closeObject])).foldlM step? (value (.object [] k :: around)) = _
    rw [List.foldlM_append, foldlM_lexemes v]
    exact foldlM_moreMembers ms k v [] around

theorem foldlM_moreItems : ∀ (is : List Json) (i : Json) (before : List Json) (around : List Frame),
    (moreItems is ++ [Lexeme.closeArray]).foldlM step? (complete i (.array before :: around)) =
      some (complete (.array (before.reverse ++ i :: is)) around)
  | [], i, before, around => by
    rw [moreItems, ← List.reverse_cons, List.nil_append]
    rfl
  | i' :: is, i, before, around => by
    rw [moreItems, List.cons_append, List.append_assoc]
    show (i'.lexemes ++ (moreItems is ++ [Lexeme.closeArray])).foldlM step? (value (.array (i :: before) :: around)) = _
    rw [List.foldlM_append, foldlM_lexemes i', List.append_cons before.reverse, ← List.reverse_cons]
    exact foldlM_moreItems is i' (i :: before) around

theorem foldlM_moreMembers : ∀ (ms : List (String × Json)) (k : String) (v : Json) (before : List (String × Json))
    (around : List Frame),
    (moreMembers ms ++ [Lexeme.closeObject]).foldlM step? (complete v (.object before k :: around)) =
      some (complete (.object (before.reverse ++ (k, v) :: ms)) around)
  | [], k, v, before, around => by
    rw [moreMembers, ← List.reverse_cons, List.nil_append]
    rfl
  | (l, w) :: ms, k, v, before, around => by
    rw [moreMembers, List.cons_append, List.cons_append, List.cons_append, List.append_assoc]
    show (w.lexemes ++ (moreMembers ms ++ [Lexeme.closeObject])).foldlM step?
      (value (.object ((k, v) :: before) l :: around)) = _
    rw [List.foldlM_append, foldlM_lexemes w, List.append_cons before.reverse, ← List.reverse_cons]
    exact foldlM_moreMembers ms l w ((k, v) :: before) around

end

end Assembly

/-! ## Texts -/

/-- The value that a text holds, with nothing but white space around it. -/
def read? (text : List Char) : Option Json :=
  (lexemes? text).bind fun ts => (ts.foldlM Assembly.step? (.value [])).bind Assembly.result?

/-- **The text of a value is read as that value**, in either layout and at any depth. -/
theorem read?_writeThen (layout : Layout) (depth : Nat) (j : Json) {rest : List Char} (h : lexemes? rest = some [])
    (hdigit : NoDigit rest) : read? (j.writeThen layout depth rest) = some j := by
  rw [read?, lexemes?_writeThen layout j depth hdigit, h, Option.map_some, Option.bind_some, List.append_nil,
    Assembly.foldlM_lexemes]
  rfl

end Parlance.Json
