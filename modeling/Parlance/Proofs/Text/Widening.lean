import Parlance.Storage.Compile

/-!
# Bytes for characters

A file's text has one character for each byte of the file. Where the file holds a text in UTF-8, an ASCII character stands
for itself (`widen_ascii`), and any other character for two or more characters, none of them ASCII (`widen_wide`). No
character outside ASCII is of any class but that of unknown symbols, and none is an escape.
-/

namespace Parlance

/-- Not a character of ASCII. -/
def IsWide (c : Char) : Prop := 128 ≤ c.toNat

instance (c : Char) : Decidable (IsWide c) := inferInstanceAs (Decidable (128 ≤ c.toNat))

/-- The bytes of a character, each as a character. -/
def widen (c : Char) : List Char := (String.utf8EncodeChar c).map Char.ofUInt8

/-! ## Encoding -/

theorem widened_toUTF8 (text : List Char) : widened (String.ofList text).toUTF8 = text.flatMap widen := by
  rw [widened, String.toUTF8, String.toByteArray_ofList, List.utf8Encode]
  simp only [List.data_toByteArray, List.map_flatMap]
  rfl

theorem widen_ascii {c : Char} (h : ¬IsWide c) : widen c = [c] := by
  have hc : c.val.toNat < 128 := Nat.lt_of_not_le h
  have hbyte : String.utf8EncodeChar c = [UInt8.ofNat c.val.toNat] := by
    rw [String.utf8EncodeChar, if_pos (Nat.le_of_lt_succ hc)]
  have hsame : Char.ofUInt8 (UInt8.ofNat c.val.toNat) = c := by
    refine Char.ext (UInt32.toNat_inj.mp ?_)
    show (UInt8.ofNat c.val.toNat).toNat = c.val.toNat
    rw [UInt8.toNat_ofNat', Nat.mod_eq_of_lt (by omega)]
  rw [widen, hbyte, List.map_singleton, hsame]

theorem widen_wide {c : Char} (h : IsWide c) :
    (∃ d e ds, widen c = d :: e :: ds) ∧ ∀ d ∈ widen c, IsWide d := by
  have hc : ¬c.val.toNat ≤ 127 := Nat.not_le.mpr (Nat.lt_of_succ_le h)
  have hbyte : ∀ n, 128 ≤ n → n < 256 → IsWide (Char.ofUInt8 (UInt8.ofNat n)) := by
    intro n hlow hhigh
    show 128 ≤ (UInt8.ofNat n).toNat
    rw [UInt8.toNat_ofNat', Nat.mod_eq_of_lt hhigh]
    exact hlow
  unfold widen String.utf8EncodeChar
  simp only [if_neg hc]
  split
  · refine ⟨⟨_, _, _, rfl⟩, ?_⟩
    simp only [List.map_cons, List.map_nil, List.forall_mem_cons]
    exact ⟨hbyte _ (by omega) (by omega), hbyte _ (by omega) (by omega), List.forall_mem_nil _⟩
  · split
    · refine ⟨⟨_, _, _, rfl⟩, ?_⟩
      simp only [List.map_cons, List.map_nil, List.forall_mem_cons]
      exact ⟨hbyte _ (by omega) (by omega), hbyte _ (by omega) (by omega), hbyte _ (by omega) (by omega), List.forall_mem_nil _⟩
    · refine ⟨⟨_, _, _, rfl⟩, ?_⟩
      simp only [List.map_cons, List.map_nil, List.forall_mem_cons]
      exact ⟨hbyte _ (by omega) (by omega), hbyte _ (by omega) (by omega), hbyte _ (by omega) (by omega),
        hbyte _ (by omega) (by omega), List.forall_mem_nil _⟩

theorem flatMap_widen_cons {c : Char} (h : ¬IsWide c) (text : List Char) :
    (c :: text).flatMap widen = c :: text.flatMap widen := by
  rw [List.flatMap_cons, widen_ascii h, List.singleton_append]

theorem flatMap_widen_singleton (c : Char) : [c].flatMap widen = widen c := by
  rw [List.flatMap_cons, List.flatMap_nil, List.append_nil]

/-! ## Classes -/

namespace IsWide

variable {c : Char}

theorem ne (h : IsWide c) {d : Char} (hd : d.toNat < 128) : c ≠ d := by
  rintro rfl
  exact absurd h (Nat.not_le.mpr hd)

theorem beq (h : IsWide c) {d : Char} (hd : d.toNat < 128) : (c == d) = false := beq_false_of_ne (h.ne hd)

theorem not_le (h : IsWide c) {d : Char} (hd : d.toNat < 128) : ¬c ≤ d := by
  intro hle
  have hnat : c.toNat ≤ d.toNat := UInt32.le_iff_toNat_le.mp hle
  exact absurd h (Nat.not_le.mpr (Nat.lt_of_le_of_lt hnat hd))

theorem isLetter (h : IsWide c) : isLetter c = false := by
  rw [Bool.eq_false_iff]
  intro hletter
  rcases isLetter_iff.mp hletter with ⟨-, hlast⟩ | ⟨-, hlast⟩
  · exact h.not_le (by decide) hlast
  · exact h.not_le (by decide) hlast

theorem isDigit (h : IsWide c) : isDigit c = false := by
  rw [Bool.eq_false_iff]
  intro hdigit
  have hlast : c ≤ '9' := (Char.isDigit_iff_toNat.mp hdigit).2
  exact h.not_le (by decide) hlast

theorem isUnderscore (h : IsWide c) : isUnderscore c = false := h.beq (by decide)

theorem isWordPart (h : IsWide c) : isWordPart c = false := by
  simp [Parlance.isWordPart, h.isLetter, h.isDigit, h.isUnderscore]

theorem isOperatorSymbol (h : IsWide c) : isOperatorSymbol c = false := by
  have hsymbols : ∀ d ∈ operatorSymbols, d.toNat < 128 := by simp [operatorSymbols]
  simp only [Parlance.isOperatorSymbol, List.contains_eq_mem, decide_eq_false_iff_not]
  exact fun hc => h.ne (hsymbols c hc) rfl

theorem isHexadecimalDigit (h : IsWide c) : isHexadecimalDigit c = false := by
  have hlower : ¬c ≤ 'f' := h.not_le (by decide)
  have hupper : ¬c ≤ 'F' := h.not_le (by decide)
  simp [Parlance.isHexadecimalDigit, h.isDigit, hlower, hupper]

theorem isBlank (h : IsWide c) : isBlank c = false := by
  rw [Parlance.isBlank, h.beq (by decide), h.beq (by decide)]
  rfl

theorem isLineEnd (h : IsWide c) : isLineEnd c = false := by
  rw [Parlance.isLineEnd, isLineFeed, isEndMark, h.beq (by decide), h.beq (by decide)]
  rfl

/-- No escape is written with a character outside ASCII. -/
theorem resolveEscape (h : IsWide c) : resolveEscape c = none := by
  unfold Parlance.resolveEscape
  split <;> first | rfl | exact absurd rfl (h.ne (by decide))

end IsWide

end Parlance
