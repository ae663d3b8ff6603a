import Parlance.Demand
import Parlance.Proofs.Grammar.File
import Parlance.Proofs.Token.Line

/-!
# Nothing is read behind the end token

No production takes a token behind the end token. Only expressions test for it; any other production has just seen a token
that is not the end token wherever it takes the next one. So a cursor that **faces** an end token, standing on it or
somewhere in front of it, does so still where a production stops (`faces_expression` and the lemmas like it), and there are
tokens enough for every step.

What is not taken is not seen (`Uniform.replace`). A parse is therefore the same with any other tokens behind the end token,
up to the number of tokens asked for (`Reading.ofTokens_endOfInput`), and it takes the end token at most (`taken_le`).
-/

namespace Parlance

/-! ## Facing the end token -/

/-- The cursor stands on an end token with the tokens `us` behind it, or in front of it. -/
inductive Cursor.Faces (us : List Token) : Cursor → Prop
  | here : Faces us ⟨some .endOfInput, us⟩
  | before {t u : Token} {ts : List Token} : Faces us ⟨some u, ts⟩ → Faces us ⟨some t, u :: ts⟩

/-- The production stops on a cursor that faces the end token; the tokens are not used up. -/
def Outcome.Faces {α : Type} {n : Nat} (us : List Token) : Outcome α n → Prop
  | matched _ c _ | mismatched c => c.Faces us
  | exhausted _ | unstarted => False

namespace Cursor.Faces

variable {α : Type} {n : Nat} {us : List Token} {c : Cursor}

theorem on (us : List Token) : ∀ ts : List Token, (Cursor.on (ts ++ .endOfInput :: us)).Faces us
  | [] => .here
  | [_] => .before .here
  | _ :: u :: ts => .before (on us (u :: ts))

/-- All of the tokens behind the end token are unread, -/
theorem length_le (h : c.Faces us) : us.length ≤ c.unread.length := by
  induction h with
  | here => exact Nat.le_refl _
  | before _ ih => exact Nat.le_succ_of_le ih

/-- and in front of it there are more. -/
theorem length_lt (h : c.Faces us) (hc : c.current ≠ some .endOfInput) : us.length < c.unread.length := by
  cases h with
  | here => exact absurd rfl hc
  | before h => exact Nat.lt_succ_of_le h.length_le

theorem advance {d : Cursor} (h : c.Faces us) (hc : c.current ≠ some .endOfInput) (hd : c.advance = some d) :
    d.Faces us := by
  cases h with
  | here => exact absurd rfl hc
  | before h =>
    cases hd
    exact h

theorem advance_ne_none (h : c.Faces us) (hc : c.current ≠ some .endOfInput) : c.advance ≠ none := by
  cases h with
  | here => exact absurd rfl hc
  | before h => nofun

/-- In front of the end token, what is unread does not begin with the tokens behind it. -/
theorem ne_nil {t : Option Token} {p : List Token} (h : Cursor.Faces us ⟨t, p ++ us⟩) (ht : t ≠ some .endOfInput) :
    p ≠ [] := by
  rintro rfl
  exact absurd (h.length_lt ht) (Nat.lt_irrefl _)

theorem isSome (h : c.Faces us) : c.current.isSome := by
  cases h <;> rfl

/-! ## The combinators of productions -/

theorem look {next : Token → Outcome α n} (h : c.Faces us) (hnext : ∀ t, c.current = some t → (next t).Faces us) :
    (c.look next).Faces us := by
  cases h with
  | here => exact hnext _ rfl
  | before => exact hnext _ rfl

theorem take {next : Token → (d : Cursor) → d.unread.length < c.unread.length → Outcome α n} (h : c.Faces us)
    (hc : c.current ≠ some .endOfInput) (hnext : ∀ t d hd, d.current = some t → d.Faces us → (next t d hd).Faces us) :
    (c.take next).Faces us := by
  cases h with
  | here => exact absurd rfl hc
  | before h => exact hnext _ _ _ rfl h

theorem expect {t : Token} {next : (d : Cursor) → d.unread.length < c.unread.length → Outcome α n} (h : c.Faces us)
    (hc : c.current ≠ some .endOfInput) (hnext : ∀ d hd, d.current = some t → d.Faces us → (next d hd).Faces us) :
    (c.expect t next).Faces us := by
  refine h.take hc fun u d hd hu hfaces => ?_
  split
  · rename_i hut
    exact hnext d hd (hut ▸ hu) hfaces
  · exact hfaces

theorem expectName {next : String → (d : Cursor) → d.unread.length < c.unread.length → Outcome α n} (h : c.Faces us)
    (hc : c.current ≠ some .endOfInput)
    (hnext : ∀ name d hd, d.current = some (.identifier name) → d.Faces us → (next name d hd).Faces us) :
    (c.expectName next).Faces us := by
  refine h.take hc fun u d hd hu hfaces => ?_
  cases u with
  | identifier name => exact hnext name d hd hu hfaces
  | _ => exact hfaces

/-- The way over line breaks leads to the end token at the latest. -/
theorem skipNewLines (h : c.Faces us) (hc : c.current ≠ some .endOfInput) :
    ∃ d, c.skipNewLines = (true, d) ∧ d.Faces us := by
  induction h with
  | here => exact absurd rfl hc
  | @before t u ts h ih =>
    by_cases hu : u = .newLine
    · subst hu
      exact ih nofun
    · exact ⟨_, overNewLines_lineBreaks 0 _ _ hu, h⟩

theorem takeOverNewLines {next : Token → (d : Cursor) → d.unread.length < c.unread.length → Outcome α n} (h : c.Faces us)
    (hc : c.current ≠ some .endOfInput) (hnext : ∀ t d hd, d.current = some t → d.Faces us → (next t d hd).Faces us) :
    (c.takeOverNewLines next).Faces us := by
  obtain ⟨d, hskip, hd⟩ := h.skipNewLines hc
  rw [takeOverNewLines_of_found hskip]
  exact hd.look fun t ht => hnext t d _ ht hd

end Cursor.Faces

namespace Outcome.Faces

variable {α β : Type} {m n : Nat} {us : List Token} {o : Outcome α m}

theorem bind {next : α → (c : Cursor) → c.unread.length < m → Outcome β n} (h : o.Faces us)
    (hnext : ∀ a c hc, o.result? = some (a, c) → c.Faces us → (next a c hc).Faces us) : (o.bind next).Faces us := by
  cases o with
  | matched a c hc => exact hnext a c hc rfl h
  | mismatched => exact h
  | exhausted => exact h
  | unstarted => exact h

/-- The end token is the last that is asked for. -/
theorem asked_le (h : o.Faces us) (total : Nat) : o.asked total ≤ total - us.length := by
  cases o with
  | matched a c => exact Nat.sub_le_sub_left h.length_le total
  | mismatched c => exact Nat.sub_le_sub_left h.length_le total
  | exhausted => exact h.elim
  | unstarted => exact h.elim

/-- The tokens behind the end token are left. -/
theorem length_le_left (h : o.Faces us) : us.length ≤ o.left := by
  cases o with
  | matched a c => exact h.length_le
  | mismatched c => exact h.length_le
  | exhausted => exact h.elim
  | unstarted => exact h.elim

end Outcome.Faces

namespace Grammar

variable {us : List Token}

/-! ## Expressions -/

mutual

theorem faces_expression (floor : Nat) (c : Cursor) (h : c.Faces us) : (expression floor c).Faces us := by
  rw [expression]
  exact (faces_operand c h).bind fun left d hd _ hfaces => faces_operators floor left d hfaces hd
termination_by (c.unread.length, 1)

theorem faces_operators {n : Nat} (floor : Nat) (left : Expr) (c : Cursor) (h : c.Faces us) (hc : c.unread.length < n) :
    (operators floor left c hc).Faces us := by
  rw [operators]
  refine h.look fun t ht => ?_
  cases t with
  | operator o =>
    dsimp only
    split
    · refine h.take (by simp [ht]) fun _ d hd _ hfaces => ?_
      refine (faces_expression (priority o) d hfaces).bind fun right e he _ hfaces => ?_
      exact faces_operators floor _ e hfaces _
    · exact h
  | _ =>
    dsimp only
    split <;> exact h
termination_by (c.unread.length, 0)

theorem faces_operand (c : Cursor) (h : c.Faces us) : (operand c).Faces us := by
  rw [operand]
  refine h.look fun t ht => ?_
  cases t with
  | literal l => exact h.take (by simp [ht]) fun _ _ _ _ hfaces => hfaces
  | identifier name =>
    refine h.take (by simp [ht]) fun u d hd hu hfaces => ?_
    cases u with
    | leftParen =>
      refine hfaces.take (by simp [hu]) fun _ e he _ hfaces => ?_
      exact (faces_arguments e hfaces).bind fun _ _ _ _ hfaces => hfaces
    | operator => exact hfaces
    | _ =>
      dsimp only
      split <;> exact hfaces
  | leftParen =>
    refine h.take (by simp [ht]) fun _ d hd _ hfaces => ?_
    refine (faces_expression lowestPriority d hfaces).bind fun inner e he _ hfaces => hfaces.look fun u hu => ?_
    cases u with
    | rightParen => exact hfaces.take (by simp [hu]) fun _ _ _ _ hfaces => hfaces
    | _ => exact hfaces
  | _ => exact h
termination_by (c.unread.length, 0)

theorem faces_arguments (c : Cursor) (h : c.Faces us) : (arguments c).Faces us := by
  rw [arguments]
  refine (faces_expression lowestPriority c h).bind fun first d hd _ hfaces => hfaces.look fun t ht => ?_
  cases t with
  | comma =>
    refine hfaces.take (by simp [ht]) fun _ e he _ hfaces => ?_
    exact (faces_arguments e hfaces).bind fun _ _ _ _ hfaces => hfaces
  | rightParen => exact hfaces.take (by simp [ht]) fun _ _ _ _ hfaces => hfaces
  | _ => exact hfaces
termination_by (c.unread.length, 2)

end

/-! ## Statements -/

theorem faces_declaration (b : Binding) {c : Cursor} (h : c.Faces us) (hc : c.current ≠ some .endOfInput) :
    (declaration b c).Faces us := by
  refine h.expectName hc fun name c₁ _ h₁ hfaces₁ => ?_
  refine hfaces₁.expect (by simp [h₁]) fun c₂ _ h₂ hfaces₂ => ?_
  refine hfaces₂.expectName (by simp [h₂]) fun type c₃ _ h₃ hfaces₃ => ?_
  refine hfaces₃.expect (by simp [h₃]) fun c₄ _ h₄ hfaces₄ => ?_
  refine hfaces₄.take (by simp [h₄]) fun _ c₅ _ _ hfaces₅ => ?_
  exact (faces_expression lowestPriority c₅ hfaces₅).bind fun _ _ _ _ hfaces => hfaces

mutual

theorem faces_block (c : Cursor) (h : c.Faces us) (hc : c.current ≠ some .endOfInput) : (block c).Faces us := by
  rw [block]
  exact h.take hc fun _ d hd _ hfaces => faces_items d hfaces hd
termination_by (c.unread.length, 0)

theorem faces_items {n : Nat} (c : Cursor) (h : c.Faces us) (hc : c.unread.length < n) : (items c hc).Faces us := by
  rw [items]
  refine h.look fun t ht => ?_
  have hitem : ((statement c).bind fun first d hd =>
      (items (n := n) d (Nat.lt_trans hd hc)).bind fun rest e he => .matched (first :: rest) e he).Faces us := by
    refine (faces_statement c h).bind fun first d hd _ hfaces => ?_
    exact (faces_items d hfaces _).bind fun _ _ _ _ hfaces => hfaces
  cases t with
  | rightCurl => exact h
  | newLine => exact h.take (by simp [ht]) fun _ d hd _ hfaces => faces_items d hfaces _
  | _ => exact hitem
termination_by (c.unread.length, 2)

theorem faces_statement (c : Cursor) (h : c.Faces us) : (statement c).Faces us := by
  rw [statement]
  refine h.look fun t ht => ?_
  have hvalue : ((expression lowestPriority c).map Statement.expression).Faces us :=
    (faces_expression lowestPriority c h).bind fun _ _ _ _ hfaces => hfaces
  cases t with
  | keyword k =>
    have hkeyword : c.current ≠ some .endOfInput := by simp [ht]
    cases k with
    | binding b => exact faces_declaration b h hkeyword
    | returns =>
      refine h.take hkeyword fun _ d hd _ hfaces => ?_
      exact (faces_expression lowestPriority d hfaces).bind fun _ _ _ _ hfaces => hfaces
    | condition => exact faces_conditional c h hkeyword
    | _ => exact hvalue
  | _ => exact hvalue
termination_by (c.unread.length, 1)

theorem faces_conditional (c : Cursor) (h : c.Faces us) (hc : c.current ≠ some .endOfInput) :
    (conditional c).Faces us := by
  rw [conditional]
  refine h.expect hc fun c₁ _ h₁ hfaces₁ => ?_
  refine (faces_operand c₁ hfaces₁).bind fun condition c₂ _ _ hfaces₂ => hfaces₂.look fun t ht => ?_
  cases t with
  | leftCurl =>
    -- a block ends on its closing brace, so the token behind it may be taken
    refine (faces_block c₂ hfaces₂ (by simp [ht])).bind fun body c₃ _ hbody hfaces₃ => ?_
    obtain ⟨-, -, -, h₃⟩ := block_sound c₂ ht hbody
    refine hfaces₃.take (by simp [h₃]) fun u c₄ _ h₄ hfaces₄ => ?_
    cases u with
    | keyword k =>
      cases k with
      | otherwise =>
        refine hfaces₄.expect (by simp [h₄]) fun c₅ _ h₅ hfaces₅ => ?_
        refine (faces_block c₅ hfaces₅ (by simp [h₅])).bind fun alternative c₆ _ halt hfaces₆ => ?_
        obtain ⟨-, -, -, h₆⟩ := block_sound c₅ h₅ halt
        exact hfaces₆.take (by simp [h₆]) fun _ _ _ _ hfaces => hfaces
      | _ => exact hfaces₄
    | _ => exact hfaces₄
  | _ => exact hfaces₂
termination_by (c.unread.length, 0)

end

/-! ## Functions -/

theorem faces_parameters (c : Cursor) (h : c.Faces us) : (parameters c).Faces us := by
  rw [parameters]
  refine h.look fun t ht => ?_
  cases t with
  | identifier name =>
    refine h.expect (by simp [ht]) fun c₁ _ h₁ hfaces₁ => ?_
    refine hfaces₁.expectName (by simp [h₁]) fun type c₂ _ h₂ hfaces₂ => ?_
    refine hfaces₂.take (by simp [h₂]) fun u c₃ _ h₃ hfaces₃ => ?_
    cases u with
    | comma =>
      refine hfaces₃.take (by simp [h₃]) fun _ c₄ _ _ hfaces₄ => ?_
      exact (faces_parameters c₄ hfaces₄).bind fun _ _ _ _ hfaces => hfaces
    | _ => exact hfaces₃
  | _ => exact h
termination_by c.unread.length

theorem faces_signature {c : Cursor} (h : c.Faces us) (hc : c.current ≠ some .endOfInput) : (signature c).Faces us := by
  refine h.take hc fun t d hd _ hfaces => ?_
  have hlisted : ((parameters d).bind fun ps e he =>
      (.matched ps e (Nat.lt_trans he hd) : Outcome (List Parameter) c.unread.length)).Faces us :=
    (faces_parameters d hfaces).bind fun _ _ _ _ hfaces => hfaces
  cases t with
  | rightParen => exact hfaces
  | _ => exact hlisted

theorem faces_function {c : Cursor} (h : c.Faces us) (hc : c.current ≠ some .endOfInput) : (function c).Faces us := by
  refine h.expectName hc fun name c₁ _ h₁ hfaces₁ => ?_
  refine hfaces₁.expect (by simp [h₁]) fun c₂ _ h₂ hfaces₂ => ?_
  refine (faces_signature hfaces₂ (by simp [h₂])).bind fun ps c₃ _ hps hfaces₃ => ?_
  obtain ⟨-, -, -, h₃⟩ := signature_sound hps
  refine hfaces₃.expect (by simp [h₃]) fun c₄ _ h₄ hfaces₄ => ?_
  refine hfaces₄.takeOverNewLines (by simp [h₄]) fun t c₅ _ h₅ hfaces₅ => ?_
  cases t with
  | identifier type =>
    refine hfaces₅.takeOverNewLines (by simp [h₅]) fun u c₆ _ h₆ hfaces₆ => ?_
    cases u with
    | leftCurl => exact (faces_block c₆ hfaces₆ (by simp [h₆])).bind fun _ _ _ _ hfaces => hfaces
    | _ => exact hfaces₆
  | _ => exact hfaces₅

/-! ## The file loop -/

section Loop

variable {total : Nat} {ts : List Token}

/-- The end token is the last that the file loop asks for. -/
theorem asked_entities_le (total : Nat) (c : Cursor) (h : c.Faces us) : (entities total c).asked ≤ total - us.length := by
  fun_induction entities total c with
  | case1 c hc =>
    have hstarted := h.isSome
    rw [hc] at hstarted
    cases hstarted
  | case2 c hc hend => exact absurd hend (h.advance_ne_none (by simp [hc]))
  | case3 c hc d hd ih => exact ih (h.advance (by simp [hc]) hd)
  | case4 c b hc s d hlt hm ih =>
    have hfaces := faces_declaration b h (by simp [hc])
    rw [hm] at hfaces
    exact ih hfaces
  | case5 c b hc hm => exact (faces_declaration b h (by simp [hc])).asked_le total
  | case6 c hc f d hlt hm hend =>
    have hfaces := faces_function h (by simp [hc])
    rw [hm] at hfaces
    obtain ⟨-, -, -, hd⟩ := function_sound hc (by rw [hm]; rfl)
    exact absurd hend (hfaces.advance_ne_none (by simp [hd]))
  | case7 c hc f d hlt hm e he ih =>
    have hfaces := faces_function h (by simp [hc])
    rw [hm] at hfaces
    obtain ⟨-, -, -, hd⟩ := function_sound hc (by rw [hm]; rfl)
    exact ih (hfaces.advance (by simp [hd]) he)
  | case8 c hc hm => exact (faces_function h (by simp [hc])).asked_le total
  | case9 c t hn hb hf hc => exact Nat.sub_le_sub_left h.length_le total

theorem entities_newLine (t : Token) : entities total ⟨some .newLine, t :: ts⟩ = entities total ⟨some t, ts⟩ := by
  rw [entities]
  rfl

theorem entities_binding (b : Binding) : entities total ⟨some (.keyword (.binding b)), ts⟩ =
    match declaration b ⟨some (.keyword (.binding b)), ts⟩ with
    | .matched s d _ => (entities total d).cons (.statement s) (total - d.unread.length)
    | o => givenUp total o := by
  rw [entities]
  simp only
  cases declaration b ⟨some (.keyword (.binding b)), ts⟩ <;> rfl

theorem entities_fun : entities total ⟨some (.keyword .function), ts⟩ =
    match function ⟨some (.keyword .function), ts⟩ with
    | .matched f ⟨_, []⟩ _ => Reading.cons (.function f) (total + 1) ⟨[], .finished, total + 1⟩
    | .matched f ⟨_, t :: ts⟩ _ => (entities total ⟨some t, ts⟩).cons (.function f) (total - ts.length)
    | o => givenUp total o := by
  rw [entities]
  cases function ⟨some (.keyword .function), ts⟩ with
  | matched f d =>
    obtain ⟨_, _ | ⟨t, ts⟩⟩ := d
    · rfl
    · rfl
  | _ => rfl

theorem entities_foreign {t : Token} (hn : t ≠ .newLine) (hb : ∀ b, t ≠ .keyword (.binding b))
    (hf : t ≠ .keyword .function) : entities total ⟨some t, ts⟩ = ⟨[], .finished, total - ts.length⟩ := by
  rw [entities]
  split <;> simp_all

/-- The file loop does not see which tokens stand behind the end token. -/
theorem entities_replace {t : Token} {p : List Token} (hus : us ≠ []) (vs : List Token)
    (h : Cursor.Faces us ⟨some t, p ++ us⟩) :
    entities (total + us.length) ⟨some t, p ++ us⟩ = entities (total + vs.length) ⟨some t, p ++ vs⟩ := by
  induction hn : p.length using Nat.strongRecOn generalizing t p with
  | ind n ih =>
    subst hn
    have hasked : ∀ q : List Token, total + us.length - (q ++ us).length = total + vs.length - (q ++ vs).length := by
      intro q
      rw [List.length_append, List.length_append]
      omega
    cases t with
    | newLine =>
      obtain ⟨u, q, rfl⟩ := List.exists_cons_of_ne_nil (h.ne_nil (by simp))
      rw [List.cons_append, List.cons_append, entities_newLine, entities_newLine]
      exact ih _ (Nat.lt_succ_self _) (h.advance (by simp) rfl) rfl
    | keyword k =>
      cases k with
      | binding b =>
        have hfaces := faces_declaration b h (by simp)
        have halike := Uniform.replace (fun N _ hN => uniform_declaration b hN) vs hus hfaces.length_le_left
        rw [entities_binding, entities_binding]
        generalize declaration b ⟨some (.keyword (.binding b)), p ++ us⟩ = o at halike hfaces
        generalize declaration b ⟨some (.keyword (.binding b)), p ++ vs⟩ = o' at halike
        cases halike with
        | @matched s u q hv hw =>
          obtain ⟨u, rfl⟩ := Option.isSome_iff_exists.mp hfaces.isSome
          have hq : q.length < p.length := by simpa using hv
          simp only [ih _ hq hfaces rfl, hasked]
        | mismatched u q => simp only [givenUp, Outcome.asked, hasked]
        | unstarted => rfl
      | function =>
        have hfaces := faces_function h (by simp)
        have halike := Uniform.replace (fun N _ hN => uniform_function hN) vs hus hfaces.length_le_left
        rw [entities_fun, entities_fun]
        generalize hf : function ⟨some (.keyword .function), p ++ us⟩ = o at halike hfaces
        generalize function ⟨some (.keyword .function), p ++ vs⟩ = o' at halike
        cases halike with
        | @matched f u q hv hw =>
          -- the token behind the closing brace is the end token at the latest
          obtain ⟨-, -, -, hbrace⟩ := function_sound rfl (by rw [hf]; rfl)
          cases hbrace
          obtain ⟨x, q, rfl⟩ := List.exists_cons_of_ne_nil (hfaces.ne_nil (by simp))
          have hq : q.length < p.length := by
            simp at hv
            omega
          simp only [List.cons_append, ih _ hq (hfaces.advance (by simp) rfl) rfl, hasked]
        | mismatched u q => simp only [givenUp, Outcome.asked, hasked]
        | unstarted => rfl
      | _ =>
        rw [entities_foreign, entities_foreign, hasked]
        all_goals simp
    | _ =>
      rw [entities_foreign, entities_foreign, hasked]
      all_goals simp

end Loop

end Grammar

/-! ## Whole parses -/

section Parses

open Grammar

variable {asked : Nat} {ts us : List Token}

theorem significant_endOfInput (ts us : List Token) :
    significant (ts ++ .endOfInput :: us) = significant ts ++ .endOfInput :: significant us :=
  significant_append ts _

/-- So many calls for a significant token do not go beyond the end token. -/
theorem pulls_le (h : asked ≤ (significant ts).length + 1) : pulls asked (ts ++ .endOfInput :: us) ≤ ts.length + 1 := by
  induction ts generalizing asked with
  | nil =>
    obtain rfl | rfl : asked = 0 ∨ asked = 1 := Nat.le_one_iff_eq_zero_or_eq_one.mp h
    · simp [pulls]
    · simp [pulls, Token.isTrivia]
  | cons t ts ih =>
    cases asked with
    | zero => exact Nat.zero_le _
    | succ asked =>
      refine Nat.succ_le_succ (ih ?_)
      cases ht : t.isTrivia with
      | true => simpa [significant, ht] using h
      | false => simpa [significant, ht] using h

theorem taken_le (h : asked ≤ (significant (ts ++ .endOfInput :: us)).length - (significant us).length) :
    taken asked (ts ++ .endOfInput :: us) ≤ ts.length + 1 := by
  refine Nat.le_trans (Nat.min_le_left _ _) (pulls_le ?_)
  rw [significant_endOfInput, List.length_append, List.length_cons] at h
  omega

/-- The first token that the grammar sees, and what follows it up to the end token. -/
theorem exists_faces (ts : List Token) : ∃ t p, ∀ us, significant (ts ++ .endOfInput :: us) = t :: (p ++ significant us) ∧
    Cursor.Faces (significant us) ⟨some t, p ++ significant us⟩ := by
  obtain ⟨t, p, hp⟩ := List.exists_cons_of_ne_nil (show significant ts ++ [Token.endOfInput] ≠ [] by simp)
  refine ⟨t, p, fun us => ?_⟩
  have hcons : significant ts ++ .endOfInput :: significant us = t :: (p ++ significant us) := by
    rw [List.append_cons, hp]
    rfl
  have hfaces := Cursor.Faces.on (significant us) (significant ts)
  rw [hcons] at hfaces
  exact ⟨(significant_endOfInput ts us).trans hcons, hfaces⟩

/-- **A file** is read in the same way whatever stands behind the end token. -/
theorem Reading.ofTokens_endOfInput (ts us : List Token) :
    Reading.ofTokens (ts ++ .endOfInput :: us) = Reading.ofTokens (ts ++ [.endOfInput]) := by
  obtain ⟨t, p, hp⟩ := exists_faces ts
  by_cases hus : significant us = []
  · rw [Reading.ofTokens, Reading.ofTokens, (hp us).1, (hp []).1, hus]
    rfl
  · have hlength : ∀ vs : List Token, (t :: (p ++ vs)).length = p.length + 1 + vs.length := by
      intro vs
      rw [List.length_cons, List.length_append, Nat.add_right_comm]
    rw [reading_ofTokens (by simp [(hp us).1]), reading_ofTokens (by simp [(hp []).1]), (hp us).1, (hp []).1, hlength,
      hlength]
    exact entities_replace hus (significant []) (hp us).2

/-- The first step of a parse leads to a cursor that faces the end token. -/
theorem Cursor.Faces.take_before {α : Type} {n : Nat} {tokens : List Token} (h : tokens = ts ++ .endOfInput :: us)
    {next : Token → (d : Cursor) → d.unread.length < (Cursor.before tokens).unread.length → Outcome α n}
    (hnext : ∀ t d hd, d.Faces us → (next t d hd).Faces us) : ((Cursor.before tokens).take next).Faces us := by
  subst h
  have hfaces := Cursor.Faces.on us ts
  cases ts with
  | nil => exact hnext _ _ _ hfaces
  | cons t ts => exact hnext _ _ _ hfaces

theorem Expr.faces_outcome (ts us : List Token) :
    (Expr.outcome (ts ++ .endOfInput :: us)).Faces (significant us) := by
  refine Cursor.Faces.take_before (significant_endOfInput ts us) fun _ d _ hd => ?_
  exact (faces_expression lowestPriority d hd).bind fun _ _ _ _ hfaces => hfaces

theorem Cursor.take_before {α : Type} {n : Nat} {tokens : List Token} {t : Token} (h : tokens = t :: ts)
    (next : Token → (d : Cursor) → d.unread.length < (Cursor.before tokens).unread.length → Outcome α n) :
    (Cursor.before tokens).take next = next t ⟨some t, ts⟩ (by rw [h]; exact Nat.lt_succ_self _) := by
  subst h
  rfl

theorem Expr.ofTokens?_cons {tokens : List Token} {t : Token} (h : significant tokens = t :: ts) :
    Expr.ofTokens? tokens = (expression lowestPriority ⟨some t, ts⟩).result?.map Prod.fst := by
  rw [Expr.ofTokens?, Expr.outcome, Cursor.take_before h]
  cases expression lowestPriority ⟨some t, ts⟩ <;> rfl

/-- **An expression** is parsed in the same way whatever stands behind the end token. -/
theorem Expr.ofTokens?_endOfInput (ts us : List Token) :
    Expr.ofTokens? (ts ++ .endOfInput :: us) = Expr.ofTokens? (ts ++ [.endOfInput]) := by
  obtain ⟨t, p, hp⟩ := exists_faces ts
  rw [Expr.ofTokens?_cons (hp us).1, Expr.ofTokens?_cons (hp []).1]
  by_cases hus : significant us = []
  · rw [hus]
    rfl
  · have hleft := (faces_expression lowestPriority _ (hp us).2).length_le_left
    exact (Uniform.replace (fun N _ hN => uniform_expression lowestPriority N hN) (significant []) hus hleft).value

theorem Reading.asked_ofTokens_le (ts us : List Token) : (Reading.ofTokens (ts ++ .endOfInput :: us)).asked ≤
    (significant (ts ++ .endOfInput :: us)).length - (significant us).length := by
  obtain ⟨t, p, hp⟩ := exists_faces ts
  rw [reading_ofTokens (by simp [(hp us).1]), (hp us).1]
  exact asked_entities_le _ _ (hp us).2

end Parses

/-- **Nothing behind the end token matters.** Files and expressions are parsed the same, whatever tokens stand behind an end
token, and neither takes any of these tokens. So a text is parsed only up to its first end mark, if no operator is open
there. -/
theorem endOfInput_closes :
    (∀ ts us : List Token,
      Reading.ofTokens (ts ++ .endOfInput :: us) = Reading.ofTokens (ts ++ [.endOfInput]) ∧
      File.ofTokens (ts ++ .endOfInput :: us) = File.ofTokens (ts ++ [.endOfInput]) ∧
      Expr.ofTokens? (ts ++ .endOfInput :: us) = Expr.ofTokens? (ts ++ [.endOfInput]) ∧
      taken (Reading.ofTokens (ts ++ .endOfInput :: us)).asked (ts ++ .endOfInput :: us) ≤ ts.length + 1 ∧
      taken ((Expr.outcome (ts ++ .endOfInput :: us)).asked (significant (ts ++ .endOfInput :: us)).length)
        (ts ++ .endOfInput :: us) ≤ ts.length + 1) ∧
    ∀ s t : List Char, (Automaton.fresh.run s).1.state ≠ .operator → File.ofText (s ++ endMark :: t) = File.ofText s := by
  have hread := Reading.ofTokens_endOfInput
  refine ⟨fun ts us => ⟨hread ts us, congrArg Reading.file (hread ts us), Expr.ofTokens?_endOfInput ts us,
    taken_le (Reading.asked_ofTokens_le ts us), taken_le ((Expr.faces_outcome ts us).asked_le _)⟩, fun s t hs => ?_⟩
  have hlex : lex (s ++ endMark :: t) = tokensOf s ++ (Automaton.fresh.run s).1.closing.toList ++ .endOfInput :: lex t := by
    rw [lex, tokensOf, List.append_assoc, List.cons_append, Automaton.run_append, Automaton.run, Automaton.feed_endMark hs]
    simp [lex, tokensOf]
  rw [File.ofText, File.ofText, hlex, lex_of_ne_operator hs, File.ofTokens, File.ofTokens, hread]

/-- A string that an end mark cuts off, with an operator and another declaration behind it. -/
theorem endOfInput_closes_string :
    (Automaton.fresh.run "val a: A = \"b".toList).1.state ≠ .operator ∧
    File.ofText ("val a: A = \"b".toList ++ endMark :: "+\nval c: C = 0".toList) = File.ofText "val a: A = \"b".toList :=
  ⟨by decide, endOfInput_closes.2 _ _ (by decide)⟩

end Parlance
