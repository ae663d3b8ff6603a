/-!
# Numerals in three radixes

Reading and writing natural numbers in radix two, ten and sixteen. Reading saturates: a numeral too large for 64 bits
stands for the largest 64-bit number.
-/

namespace Parlance

inductive Radix where
  | binary
  | decimal
  | hexadecimal
deriving DecidableEq

namespace Radix

def base : Radix → Nat
  | binary => 2
  | decimal => 10
  | hexadecimal => 16

theorem one_lt_base (r : Radix) : 1 < r.base := by cases r <;> decide

/-! ## Reading -/

/-- How many characters a numeral writes in front of its digits: `0b` and `0x`, nothing in radix ten. -/
def markLength : Radix → Nat
  | binary => 2
  | decimal => 0
  | hexadecimal => 2

/-- The value of a digit, of either case. -/
def digit? (r : Radix) (c : Char) : Option Nat :=
  (if '0' ≤ c && c ≤ '9' then some (c.toNat - '0'.toNat)
  else if 'a' ≤ c && c ≤ 'f' then some (c.toNat - 'a'.toNat + 10)
  else if 'A' ≤ c && c ≤ 'F' then some (c.toNat - 'A'.toNat + 10)
  else none).filter (· < r.base)

/-- The number with one more digit, or the largest 64-bit number where that does not fit. -/
def push (r : Radix) (value : UInt64) (digit : Nat) : UInt64 :=
  .ofNat (min (value.toNat * r.base + digit) (UInt64.size - 1))

theorem toNat_push (r : Radix) (value : UInt64) (digit : Nat) :
    (r.push value digit).toNat = min (value.toNat * r.base + digit) (UInt64.size - 1) := by
  have hsize : UInt64.size = 2 ^ 64 := rfl
  rw [push, UInt64.toNat_ofNat', Nat.mod_eq_of_lt (by omega)]

/-- The value of a whole numeral. Underscores separate digits wherever they stand; no digits at all mean zero. -/
def value (r : Radix) (numeral : List Char) : UInt64 :=
  (((numeral.filter (· != '_')).drop r.markLength).filterMap r.digit?).foldl r.push 0

/-! ## Writing -/

/-- The digit of a value below sixteen, in upper case. -/
def glyph (digit : Nat) : Char :=
  if digit < 10 then .ofNat ('0'.toNat + digit) else .ofNat ('A'.toNat + (digit - 10))

/-- The digits of `n` without leading zeros, in front of `rest`. -/
def digitsThen (r : Radix) (n : Nat) (rest : List Char) : List Char :=
  if n < r.base then glyph n :: rest else digitsThen r (n / r.base) (glyph (n % r.base) :: rest)
termination_by n
decreasing_by exact Nat.div_lt_self (by have := r.one_lt_base; omega) r.one_lt_base

def digits (r : Radix) (n : Nat) : List Char := r.digitsThen n []

theorem digitsThen_eq (r : Radix) (n : Nat) (rest : List Char) : r.digitsThen n rest = r.digits n ++ rest := by
  unfold digits
  induction n using Nat.strongRecOn generalizing rest with
  | ind n ih =>
    rw [digitsThen, digitsThen.eq_1 r n []]
    split
    · rfl
    · have shorter : n / r.base < n := Nat.div_lt_self (by have := r.one_lt_base; omega) r.one_lt_base
      rw [ih _ shorter, ih _ shorter [_]]
      simp

/-- A digit is read as the value that it is written for. -/
theorem digit?_glyph (r : Radix) {d : Nat} (h : d < r.base) : r.digit? (glyph d) = some d := by
  have all : ∀ d < r.base, r.digit? (glyph d) = some d := by cases r <;> decide
  exact all d h

/-- What the numeral of a radix writes in front of its digits. -/
def mark : Radix → List Char
  | binary => ['0', 'b']
  | decimal => []
  | hexadecimal => ['0', 'x']

/-- A number as the language writes it. -/
def numeral (r : Radix) (n : Nat) : List Char := r.mark ++ r.digits n

end Radix

end Parlance
