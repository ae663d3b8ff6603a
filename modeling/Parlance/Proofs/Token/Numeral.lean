import Mathlib.Data.Nat.Digits.Defs
import Parlance.Proofs.Token.Writing

/-!
# Numerals in a text

A numeral is read up to the first character that it does not go on with, whatever stands in front of it and behind it
(`lex_numeral`). Its value is the number that its digits stand for, cut off at the largest one of 64 bits; so two
numerals that differ in underscores and leading zeros only have the same value.
-/

namespace Parlance

/-! ## Values -/

/-- The digit at the front of a numeral is the highest one. -/
theorem Radix.natural_eq_ofDigits (r : Radix) (ds : List Char) :
    r.natural ds = Nat.ofDigits r.base (ds.filterMap r.digit?).reverse := by
  rw [Nat.ofDigits_eq_foldr, List.foldr_reverse, natural]
  congr 1
  funext n d
  rw [Nat.mul_comm, Nat.add_comm, Nat.cast_id]

section Value

variable {r : Radix} {w : List Char}

/-- The digits of a numeral that count: its mark, underscores and leading zeros do not. -/
def Radix.significantDigits (r : Radix) (w : List Char) : List Char :=
  ((w.drop r.markLength).filter (· != '_')).dropWhile (· == '0')

/-- No underscore stands in the mark of a numeral. -/
theorem drop_filter (hw : (State.numeral r).Opens w) :
    (w.filter (· != '_')).drop r.markLength = (w.drop r.markLength).filter (· != '_') := by
  have hmark : ∀ {m : Char}, isBinaryMark m = true ∨ isHexadecimalMark m = true → m ≠ '_' := by
    rintro m hm rfl
    rcases hm with hm | hm <;> cases hm
  cases hw with
  | decimal => rfl
  | binary mark => simp [hmark (.inl mark), Radix.markLength]
  | hexadecimal mark => simp [hmark (.inr mark), Radix.markLength]

/-- The value of a numeral is the number of its digits, underscores and leading zeros left out or not. -/
theorem toNat_value_numeral (hw : (State.numeral r).Opens w) :
    (r.value w).toNat = min (r.natural (w.drop r.markLength)) (UInt64.size - 1) := by
  rw [Radix.toNat_value, drop_filter hw, Radix.natural_filter]

theorem natural_significantDigits (r : Radix) (w : List Char) :
    r.natural (r.significantDigits w) = r.natural (w.drop r.markLength) := by
  rw [Radix.significantDigits, Radix.natural_dropWhile, Radix.natural_filter]

/-- Only the digits that count make the value of a numeral. -/
theorem value_congr {v : List Char} (hv : (State.numeral r).Opens v) (hw : (State.numeral r).Opens w)
    (h : r.significantDigits v = r.significantDigits w) : r.value v = r.value w := by
  rw [← UInt64.toNat_inj, toNat_value_numeral hv, toNat_value_numeral hw, ← natural_significantDigits, h,
    natural_significantDigits]

end Value

/-! ## Texts -/

/-- The automaton reads a numeral at the front of a text, end marks behind it or not. -/
theorem lex_numeral_front {r : Radix} {w rest : List Char} (hw : (State.numeral r).Opens w)
    (hrest : ∀ d ∈ rest.head?, State.isNumeralPart r d = false)
    (hzero : w = ['0'] → ∀ m ∈ rest.head?, isBinaryMark m = false ∧ isHexadecimalMark m = false) :
    lex (w ++ rest) = .literal (.integer r (r.value w)) :: lex rest := by
  obtain ⟨c, cs, rfl, hdigit⟩ := cons_of_opens_numeral hw
  have htokens : lex (c :: (cs ++ rest)) = (Munch.numeral c (cs ++ rest)).tokens lex :=
    Automaton.tokens_startNumeral hdigit (not_isWordStart_of_isDigit hdigit)
  rw [List.cons_append, htokens, numeral_exact hw hrest hzero, Munch.tokens]

/-- **Numerals in a text.** Where no token is open, a numeral in front of a character that it does not go on with is one
literal, and the text behind it is read as from its beginning. The value is the number that the digits stand for, or the
largest one of 64 bits if that is larger; underscores and leading zeros do not change it. -/
theorem lex_numeral {r : Radix} {p w rest : List Char} (hp : (Automaton.fresh.run p).1.state = .idle)
    (hw : (State.numeral r).Opens w) (hrest : ∀ c ∈ rest.head?, State.isNumeralPart r c = false)
    (hzero : w = ['0'] → ∀ c ∈ rest.head?, isBinaryMark c = false ∧ isHexadecimalMark c = false) :
    lex (p ++ w ++ rest) = tokensOf p ++ .literal (.integer r (r.value w)) :: lex rest ∧
    (r.value w).toNat = min (Nat.ofDigits r.base ((w.drop r.markLength).filterMap r.digit?).reverse) (2 ^ 64 - 1) ∧
    ∀ v, (State.numeral r).Opens v → r.significantDigits v = r.significantDigits w → r.value v = r.value w := by
  refine ⟨?_, ?_, fun v hv h => value_congr hv hw h⟩
  · rw [List.append_assoc, lex_append_of_fresh (Automaton.run_eq_fresh hp), lex_numeral_front hw hrest hzero]
  · rw [toNat_value_numeral hw, Radix.natural_eq_ofDigits]
    rfl

/-- A numeral too large for 64 bits between a parenthesis and a letter, and another one of its value; and a lone zero in
front of an end mark. -/
theorem lex_numeral_saturated :
    lex "(0x1_0000_0000_0000_000fg".toList =
      [.leftParen, .literal (.integer .hexadecimal 18446744073709551615), .identifier "g", .endOfInput] ∧
    Radix.hexadecimal.value "0X_01__0000_0000_0000_000f".toList = Radix.hexadecimal.value "0x1_0000_0000_0000_000f".toList ∧
    lex "0\x00".toList = [.literal (.integer .decimal 0), .endOfInput, .endOfInput] := by
  have hnumeral : (State.numeral .hexadecimal).Opens ('0' :: 'x' :: "1_0000_0000_0000_000f".toList) :=
    .hexadecimal rfl (List.all_eq_true.mp rfl)
  have hrespelled : (State.numeral .hexadecimal).Opens ('0' :: 'X' :: "_01__0000_0000_0000_000f".toList) :=
    .hexadecimal rfl (List.all_eq_true.mp rfl)
  have hletter : ∀ c ∈ "g".toList.head?, State.isNumeralPart .hexadecimal c = false := by
    rintro _ ⟨⟩
    rfl
  have hlarge := lex_numeral (p := "(".toList) rfl hnumeral hletter nofun
  have hlone : (State.numeral .decimal).Opens ['0'] := .decimal ⟨rfl, nofun⟩
  have hmark : ∀ c ∈ "\x00".toList.head?, State.isNumeralPart .decimal c = false := by
    rintro _ ⟨⟩
    rfl
  have hzero := lex_numeral (p := []) rfl hlone hmark <| by
    rintro - _ ⟨⟩
    exact ⟨rfl, rfl⟩
  exact ⟨hlarge.1.trans (by decide +kernel), hlarge.2.2 _ hrespelled rfl, hzero.1.trans (by decide +kernel)⟩

end Parlance
