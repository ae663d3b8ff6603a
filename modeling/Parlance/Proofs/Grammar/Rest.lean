import Parlance.Proofs.Grammar.Sentence

/-!
# What stands behind a list of entities

A list of entities ends in a line break or with the last token of an entity (`SpellsEntities.last`). It sees the tokens
behind it only through its last entity, a declaration in front of a closing token: other tokens can stand there if they
start with a closing token too, or if the list does not end in an entity (`SpellsEntities.replace`).
-/

namespace Parlance.Grammar

variable {w rest rest' : List Token}

/-! ## The last token -/

/-- The tokens that an entity can end with. -/
def closesEntity : Token → Bool
  | .literal _ | .identifier _ | .rightParen | .rightCurl => true
  | _ => false

theorem Spells.last {floor : Nat} {e : Expr} (h : Spells floor w e) : ∃ t, w.getLast? = some t ∧ closesEntity t = true := by
  induction h using Spells.rec (motive_2 := fun _ _ _ => True) with
  | literal => exact ⟨_, rfl, rfl⟩
  | identifier => exact ⟨_, rfl, rfl⟩
  | call => exact ⟨.rightParen, by simp [List.getLast?_cons], rfl⟩
  | parens => exact ⟨.rightParen, by simp [List.getLast?_cons], rfl⟩
  | binary _ _ _ _ ihr =>
    obtain ⟨t, hlast, ht⟩ := ihr
    exact ⟨t, by simp [List.getLast?_append, List.getLast?_cons, hlast], ht⟩
  | one => trivial
  | more => trivial

theorem SpellsSimple.last {s : Statement} (h : SpellsSimple w s) : ∃ t, w.getLast? = some t ∧ closesEntity t = true := by
  cases h with
  | declaration hs =>
    obtain ⟨t, hlast, ht⟩ := hs.last
    exact ⟨t, by simp [List.getLast?_cons, hlast], ht⟩
  | returns hs =>
    obtain ⟨t, hlast, ht⟩ := hs.last
    exact ⟨t, by simp [List.getLast?_cons, hlast], ht⟩
  | expression hs => exact hs.last

theorem SpellsFunction.last {f : Function} (h : SpellsFunction w f) : w.getLast? = some .rightCurl := by
  cases h with
  | intro m n hs hb =>
    cases hb with
    | braces => simp [List.getLast?_append, List.getLast?_cons]

theorem SpellsEntity.last {e : Entity} (h : SpellsEntity w rest e) : ∃ t, w.getLast? = some t ∧ closesEntity t = true := by
  cases h with
  | function hs => exact ⟨.rightCurl, hs.last, rfl⟩
  | declaration hs => exact hs.last

theorem SpellsEntities.last {es : List Entity} (h : SpellsEntities w rest es) {t : Token} (ht : w.getLast? = some t) :
    t = .newLine ∨ closesEntity t = true := by
  induction h with
  | nil => cases ht
  | @newLine w _ _ _ ih =>
    cases hw : w.getLast? with
    | none => simp [List.getLast?_cons, hw] at ht; exact .inl ht.symm
    | some u => exact ih (by simpa [List.getLast?_cons, hw] using ht)
  | @entity v w _ _ _ he _ ih =>
    cases hw : w.getLast? with
    | none =>
      obtain ⟨u, hlast, hu⟩ := he.last
      simp [List.getLast?_append, hw, hlast] at ht
      exact .inr (ht ▸ hu)
    | some u => exact ih (by simpa [List.getLast?_append, hw] using ht)

/-! ## Other tokens behind the entities -/

/-- A closing token stands in front. -/
def Closed (ts : List Token) : Prop := ∃ t us, ts = t :: us ∧ t ∈ closers

theorem SpellsEntity.replace {e : Entity} (h : SpellsEntity w rest e) (hrest : Closed rest → Closed rest') :
    SpellsEntity w rest' e := by
  cases h with
  | function hs => exact .function hs
  | declaration hs ht =>
    obtain ⟨t, us, rfl, ht⟩ := hrest ⟨_, _, rfl, ht⟩
    exact .declaration hs ht

theorem SpellsEntities.replace {es : List Entity} (h : SpellsEntities w rest es)
    (hrest : (Closed rest → Closed rest') ∨ ∀ t, w.getLast? = some t → closesEntity t = false) :
    SpellsEntities w rest' es := by
  induction h with
  | nil => exact .nil
  | @newLine w _ _ _ ih =>
    refine .newLine (ih (hrest.imp_right fun hlast t ht => ?_))
    exact hlast t (by simp [List.getLast?_cons, ht])
  | @entity v w _ _ _ he _ ih =>
    refine .entity (he.replace ?_) (ih (hrest.imp_right fun hlast t ht => ?_))
    · cases w with
      | nil =>
        rcases hrest with hclosed | hlast
        · exact hclosed
        · obtain ⟨t, hv, ht⟩ := he.last
          rw [List.append_nil] at hlast
          exact absurd ht (by simp [hlast t hv])
      | cons u us =>
        rintro ⟨t, ts, hw, ht⟩
        cases hw
        exact ⟨u, _, rfl, ht⟩
    · exact hlast t (by simp [List.getLast?_append, ht])

/-- No tokens spell no entities. -/
theorem SpellsEntities.eq_nil {es : List Entity} (h : SpellsEntities [] rest es) : es = [] := by
  generalize hw : ([] : List Token) = w at h
  cases h with
  | nil => rfl
  | newLine => cases hw
  | entity he =>
    obtain ⟨t, hlast, -⟩ := he.last
    rw [(List.append_eq_nil_iff.mp hw.symm).1] at hlast
    cases hlast

/-- A line break at the end of the entities is one in front of what stands behind them. -/
theorem SpellsEntities.of_newLine {es : List Entity} (h : SpellsEntities (w ++ [Token.newLine]) rest es) :
    SpellsEntities w (.newLine :: rest) es := by
  generalize hv : w ++ [Token.newLine] = v at h
  induction h generalizing w with
  | nil => simp at hv
  | newLine hs ih =>
    cases w with
    | nil =>
      cases hv
      rw [hs.eq_nil]
      exact .nil
    | cons u us =>
      cases hv
      exact .newLine (ih rfl)
  | @entity x y rest e es he hs ih =>
    rcases y.eq_nil_or_concat with rfl | ⟨y, t, rfl⟩
    · obtain ⟨t, hlast, ht⟩ := he.last
      rw [List.append_nil] at hv
      rw [← hv, List.getLast?_concat] at hlast
      cases hlast
      cases ht
    · rw [List.concat_eq_append] at hv he ih
      rw [← List.append_assoc] at hv
      obtain ⟨rfl, ht⟩ := List.append_inj' hv rfl
      cases ht
      refine .entity ?_ (ih rfl)
      simpa using he

/-! ## Entities in front of the end token -/

/-- The last of some tokens is the last of what stands behind a part of them, or the part is the whole. -/
theorem concat_eq_append {ts w rest : List Token} {z : Token} (h : ts ++ [z] = w ++ rest) :
    (rest = [] ∧ w = ts ++ [z]) ∨ ∃ u, rest = u ++ [z] ∧ ts = w ++ u := by
  rcases rest.eq_nil_or_concat with rfl | ⟨u, x, rfl⟩
  · exact .inl ⟨rfl, by rw [h, List.append_nil]⟩
  · rw [List.concat_eq_append, ← List.append_assoc] at h
    obtain ⟨hts, hz⟩ := List.append_inj' h rfl
    cases hz
    exact .inr ⟨u, List.concat_eq_append, hts⟩

/-- No entity takes the end token behind it. -/
theorem SpellsEntities.endOfInput {ts : List Token} {es : List Entity} (h : SpellsEntities w rest es)
    (hts : ts ++ [Token.endOfInput] = w ++ rest) : ∃ u, rest = u ++ [Token.endOfInput] ∧ ts = w ++ u := by
  rcases concat_eq_append hts with ⟨-, rfl⟩ | hu
  · rcases h.last List.getLast?_concat with hlast | hlast <;> cases hlast
  · exact hu

/-- If entities take the line break in front of the end token, they can also leave it. -/
theorem SpellsEntities.newLine_endOfInput {ts : List Token} {es : List Entity} (h : SpellsEntities w rest es)
    (hts : ts ++ [Token.newLine, .endOfInput] = w ++ rest) :
    ∃ w' u, ts = w' ++ u ∧ SpellsEntities w' (u ++ [Token.newLine, .endOfInput]) es := by
  have hassoc : ts ++ [Token.newLine, .endOfInput] = (ts ++ [Token.newLine]) ++ [Token.endOfInput] := by simp
  obtain ⟨u, rfl, hu⟩ := h.endOfInput (hassoc ▸ hts)
  rcases concat_eq_append hu with ⟨rfl, rfl⟩ | ⟨u, rfl, rfl⟩
  · exact ⟨ts, [], (List.append_nil ts).symm, h.of_newLine⟩
  · rw [List.append_assoc] at h
    exact ⟨w, u, rfl, h⟩

end Parlance.Grammar
