import Parlance.Grammar.Statement
import Parlance.Proofs.Grammar.Statement

/-!
# Functions are parsed exactly

* **Soundness** (`function_sound`) and **completeness** (`SpellsFunction.function`) of functions, from the same two facts
  about their parameters and signature.

The parameters and the signature leave the cursor on the closing parenthesis, a function on the closing brace of its body.
-/

namespace Parlance.Grammar

open Cursor

/-! ## Soundness -/

theorem parameters_sound (c : Cursor) {ps : List Parameter} {d : Cursor} (h : (parameters c).result? = some (ps, d)) :
    ∃ w, c.ahead = w ++ d.ahead ∧ SpellsParameters w ps ∧ d.current = some .rightParen := by
  rw [parameters, result?_look] at h
  obtain ⟨t, ht, h⟩ := h
  split at h
  · obtain ⟨c₁, _, h₁, hn₁, h⟩ := result?_expect.mp h
    obtain ⟨type, c₂, _, h₂, hn₂, h⟩ := result?_expectName.mp h
    obtain ⟨u, c₃, _, h₃, hn₃, h⟩ := result?_take.mp h
    split at h
    · obtain ⟨_, c₄, _, h₄, -, h⟩ := result?_take.mp h
      obtain ⟨rest, c₅, _, hrest, h⟩ := Outcome.result?_bind.mp h
      cases h
      obtain ⟨w, hw, hs, hd⟩ := parameters_sound c₄ hrest
      refine ⟨_, ?_, .more hs, hd⟩
      rw [ahead_of_advance ht h₁, ahead_of_advance hn₁ h₂, ahead_of_advance hn₂ h₃, ahead_of_advance hn₃ h₄, hw]
      simp
    · cases h
      refine ⟨_, ?_, .one, hn₃⟩
      rw [ahead_of_advance ht h₁, ahead_of_advance hn₁ h₂, ahead_of_advance hn₂ h₃]
      rfl
    · cases h
  · cases h
termination_by c.unread.length

theorem signature_sound {c d : Cursor} {ps : List Parameter} (h : (signature c).result? = some (ps, d)) :
    ∃ w, c.unread = w ++ d.ahead ∧ SpellsSignature w ps ∧ d.current = some .rightParen := by
  obtain ⟨t, b, _, hstep, ht, h⟩ := result?_take.mp h
  split at h
  · cases h
    exact ⟨[], unread_of_advance hstep, .empty, ht⟩
  · obtain ⟨ps, e, _, hps, h⟩ := Outcome.result?_bind.mp h
    cases h
    obtain ⟨w, hw, hs, hd⟩ := parameters_sound b hps
    exact ⟨w, (unread_of_advance hstep).trans hw, .listed hs, hd⟩

theorem function_sound {c d : Cursor} {f : Function} (hc : c.current = some (.keyword .function))
    (h : (function c).result? = some (f, d)) :
    ∃ w, c.ahead = w ++ d.unread ∧ SpellsFunction w f ∧ d.current = some .rightCurl := by
  obtain ⟨name, c₁, _, h₁, hn₁, h⟩ := result?_expectName.mp h
  obtain ⟨c₂, _, h₂, hn₂, h⟩ := result?_expect.mp h
  obtain ⟨ps, c₃, _, hps, h⟩ := Outcome.result?_bind.mp h
  obtain ⟨v, hv, hs, hn₃⟩ := signature_sound hps
  obtain ⟨c₄, _, h₄, hn₄, h⟩ := result?_expect.mp h
  obtain ⟨m, t, c₅, _, h₅, hn₅, -, h⟩ := result?_takeOverNewLines.mp h
  split at h
  · obtain ⟨n, u, c₆, _, h₆, hn₆, -, h⟩ := result?_takeOverNewLines.mp h
    split at h
    · obtain ⟨body, c₇, _, hbody, h⟩ := Outcome.result?_bind.mp h
      cases h
      obtain ⟨w, hw, hb, hd⟩ := block_sound c₆ hn₆ hbody
      refine ⟨_, ?_, .intro m n hs hb, hd⟩
      rw [ahead_of_advance hc h₁, ahead_of_advance hn₁ h₂, ahead_of_current hn₂, hv, ahead_of_advance hn₃ h₄,
        ahead_of_current hn₄, h₅, h₆, ← ahead_of_current hn₆, hw]
      simp
    · cases h
  · cases h

/-! ## Completeness -/

theorem SpellsParameters.parameters {w : List Token} {ps : List Parameter} (h : SpellsParameters w ps) (ts : List Token) :
    (parameters (on (w ++ .rightParen :: ts))).result? = some (ps, on (.rightParen :: ts)) := by
  induction h with
  | one =>
    rw [Grammar.parameters]
    rfl
  | @more name type w ps hs ih =>
    obtain ⟨u, us, hus⟩ := List.exists_cons_of_ne_nil (List.append_ne_nil_of_right_ne_nil w (List.cons_ne_nil .rightParen ts))
    simp only [List.cons_append]
    rw [hus] at ih ⊢
    rw [Grammar.parameters]
    exact Outcome.result?_bind_of ih rfl

theorem SpellsSignature.signature {w : List Token} {ps : List Parameter} (h : SpellsSignature w ps) (ts : List Token) :
    (signature (on (.leftParen :: (w ++ .rightParen :: ts)))).result? = some (ps, on (.rightParen :: ts)) := by
  cases h with
  | empty => rfl
  | listed hs =>
    have hps := hs.parameters ts
    cases hs with
    | one => exact Outcome.result?_bind_of hps rfl
    | more => exact Outcome.result?_bind_of hps rfl

/-- A function is read up to the closing brace of its body. -/
theorem SpellsFunction.function {w : List Token} {f : Function} (h : SpellsFunction w f) (ts : List Token) :
    (function (on (w ++ ts))).result? = some (f, on (.rightCurl :: ts)) := by
  cases h with
  | @intro name type v w ps body m n hs hb =>
    have hbody := hb.block ts
    obtain ⟨w, rfl⟩ := hb.eq_cons
    have hps := hs.signature (.colon :: (lineBreaks m ++ .identifier type :: (lineBreaks n ++ .leftCurl :: (w ++ ts))))
    have hassoc : v ++ .rightParen :: .colon :: (lineBreaks m ++ .identifier type :: (lineBreaks n ++ .leftCurl :: w)) ++ ts =
        v ++ .rightParen :: .colon :: (lineBreaks m ++ .identifier type :: (lineBreaks n ++ .leftCurl :: (w ++ ts))) := by
      simp
    rw [List.cons_append, List.cons_append, List.cons_append, hassoc]
    refine Outcome.result?_bind_of hps ?_
    refine result?_expect.mpr ⟨_, Nat.lt_succ_self _, rfl, rfl, ?_⟩
    refine result?_takeOverNewLines.mpr ⟨m, _, on (.identifier type :: (lineBreaks n ++ .leftCurl :: (w ++ ts))), ?_, rfl,
      rfl, nofun, ?_⟩
    · simp only [unread_on, List.tail_cons, List.length_append, List.length_cons]
      omega
    refine result?_takeOverNewLines.mpr ⟨n, _, on (.leftCurl :: (w ++ ts)), ?_, rfl, rfl, nofun, ?_⟩
    · simp only [unread_on, List.tail_cons, List.length_append, List.length_cons]
      omega
    exact Outcome.result?_bind_of hbody rfl

end Parlance.Grammar
