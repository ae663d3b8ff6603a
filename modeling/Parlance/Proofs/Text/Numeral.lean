import Parlance.Text.Numeral

/-!
# Numerals are read as they are written

The digits of a number end with its remainder and start with the digits of its quotient (`digits_of_le`), and reading them
from the left undoes this step by step. The value of a numeral is cut off at every digit, which comes to the same as
cutting off the number of all its digits once (`toNat_value`); neither underscores nor leading zeros are seen in it. So
every 64-bit number is the value of its numeral, in each radix (`value_numeral`).
-/

namespace Parlance.Radix

variable (r : Radix)

/-! ## Digits -/

theorem digits_of_lt {n : Nat} (h : n < r.base) : r.digits n = [glyph n] := by
  rw [digits, digitsThen, if_pos h]

theorem digits_of_le {n : Nat} (h : r.base ≤ n) : r.digits n = r.digits (n / r.base) ++ [glyph (n % r.base)] := by
  rw [digits, digitsThen, if_neg (Nat.not_lt.mpr h), digitsThen_eq]

theorem div_base_lt {n : Nat} (h : r.base ≤ n) : n / r.base < n := by
  have hbase := r.one_lt_base
  exact Nat.div_lt_self (by omega) hbase

/-- Every digit of a number stands for a value below the base. -/
theorem mem_digits {n : Nat} {c : Char} (h : c ∈ r.digits n) : ∃ d < r.base, c = glyph d := by
  induction n using Nat.strongRecOn with
  | ind n ih =>
    by_cases hn : n < r.base
    · rw [digits_of_lt r hn] at h
      exact ⟨n, hn, List.mem_singleton.mp h⟩
    · have hle : r.base ≤ n := Nat.not_lt.mp hn
      rw [digits_of_le r hle] at h
      rcases List.mem_append.mp h with h | h
      · exact ih _ (r.div_base_lt hle) h
      · have hpos : 0 < r.base := Nat.lt_trans Nat.zero_lt_one r.one_lt_base
        exact ⟨n % r.base, Nat.mod_lt n hpos, List.mem_singleton.mp h⟩

theorem digits_ne_nil (n : Nat) : r.digits n ≠ [] := by
  by_cases hn : n < r.base
  · rw [digits_of_lt r hn]
    exact List.cons_ne_nil _ _
  · rw [digits_of_le r (Nat.not_lt.mp hn)]
    exact List.append_ne_nil_of_right_ne_nil _ (List.cons_ne_nil _ _)

/-! ## Values -/

/-- The number that digits stand for, however large it is. -/
def natural (ds : List Char) : Nat := (ds.filterMap r.digit?).foldl (fun n d => n * r.base + d) 0

/-- Digits without a bound are read as they are written. -/
theorem natural_digits (n : Nat) : r.natural (r.digits n) = n := by
  unfold natural
  induction n using Nat.strongRecOn with
  | ind n ih =>
    by_cases hn : n < r.base
    · rw [digits_of_lt r hn, List.filterMap_cons, digit?_glyph r hn]
      simp
    · have hle : r.base ≤ n := Nat.not_lt.mp hn
      have hpos : 0 < r.base := Nat.lt_trans Nat.zero_lt_one r.one_lt_base
      have hlast := digit?_glyph r (Nat.mod_lt n hpos)
      rw [digits_of_le r hle, List.filterMap_append, List.foldl_append, ih _ (r.div_base_lt hle), List.filterMap_cons, hlast]
      exact Nat.div_add_mod' n r.base

/-- Underscores are not digits. -/
theorem natural_filter (ds : List Char) : r.natural (ds.filter (· != '_')) = r.natural ds := by
  have hnone : r.digit? '_' = none := by cases r <;> rfl
  rw [natural, natural, List.filterMap_filter]
  congr 2
  funext c
  by_cases hc : c = '_'
  · simp [hc, hnone]
  · simp [hc]

/-- Leading zeros do not count. -/
theorem natural_dropWhile (ds : List Char) : r.natural (ds.dropWhile (· == '0')) = r.natural ds := by
  have hzero : r.digit? '0' = some 0 := by cases r <;> rfl
  induction ds with
  | nil => rfl
  | cons c cs ih =>
    by_cases hc : c = '0'
    · rw [List.dropWhile_cons_of_pos (by simpa using hc), ih, hc]
      simp [natural, hzero]
    · rw [List.dropWhile_cons_of_neg (by simpa using hc)]

/-- A number that is too large stays so with one more digit, so it may be cut off before the digit or behind it. -/
theorem min_push (n d m : Nat) : min (min n m * r.base + d) m = min (n * r.base + d) m := by
  by_cases hn : n ≤ m
  · rw [Nat.min_eq_left hn]
  · have hpos : 0 < r.base := Nat.lt_trans Nat.zero_lt_one r.one_lt_base
    have hmax : m ≤ m * r.base := Nat.le_mul_of_pos_right m hpos
    have hlarge : n ≤ n * r.base := Nat.le_mul_of_pos_right n hpos
    rw [Nat.min_eq_right (by omega : m ≤ n)]
    omega

/-- Saturating at every digit is saturating once, at the end. -/
theorem toNat_foldl_push (ds : List Nat) {v : UInt64} {n : Nat} (h : v.toNat = min n (UInt64.size - 1)) :
    (ds.foldl r.push v).toNat = min (ds.foldl (fun n d => n * r.base + d) n) (UInt64.size - 1) := by
  induction ds generalizing v n with
  | nil => exact h
  | cons d ds ih =>
    refine ih ?_
    rw [toNat_push, h, min_push]

/-- The value of a numeral is the number that its digits stand for, if that fits. -/
theorem toNat_value (w : List Char) :
    (r.value w).toNat = min (r.natural ((w.filter (· != '_')).drop r.markLength)) (UInt64.size - 1) :=
  r.toNat_foldl_push _ rfl

/-- No digit is an underscore. -/
theorem glyph_ne_underscore {d : Nat} (h : d < r.base) : glyph d ≠ '_' := by
  have all : ∀ d < r.base, glyph d ≠ '_' := by cases r <;> decide
  exact all d h

theorem drop_mark (ds : List Char) : (r.mark ++ ds).drop r.markLength = ds := by
  cases r <;> rfl

/-- A number is the value of its numeral. -/
theorem value_numeral (v : UInt64) : r.value (r.numeral v.toNat) = v := by
  have hfilter : (r.numeral v.toNat).filter (· != '_') = r.numeral v.toNat := by
    rw [List.filter_eq_self]
    intro c hc
    rcases List.mem_append.mp hc with hc | hc
    · have marks : r.mark.all (· != '_') = true := by cases r <;> rfl
      exact List.all_eq_true.mp marks c hc
    · obtain ⟨d, hd, rfl⟩ := r.mem_digits hc
      simpa using r.glyph_ne_underscore hd
  have hsize : v.toNat < UInt64.size := v.toNat_lt
  rw [← UInt64.toNat_inj, toNat_value, hfilter, numeral, drop_mark, natural_digits]
  omega

end Parlance.Radix
