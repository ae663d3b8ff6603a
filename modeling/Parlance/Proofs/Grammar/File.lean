import Parlance.Grammar.File
import Parlance.Proofs.Grammar.Function

/-!
# A file is its longest list of entities

`parsed ts` is what the file loop makes of the tokens `ts` from a cursor on their first. It drops line breaks
(`parsed_newLine`), takes the entities that the tokens start with (`parsed_entity`), and so goes through any list of
entities to what stands behind them (`parsed_append`). `Halts` tells where it stops and why (`accounts_entities`), and there
no other entity follows (`parsed_sound`).

Together: the entities of a file are spelled by a prefix of its tokens that no entity continues, and every prefix that
spells entities spells a prefix of them (`ofTokens_exact`).
-/

namespace Parlance.Grammar

open Cursor

/-! ## Steps of the file loop -/

section Steps

variable {total : Nat} {c d : Cursor}

/-- The entities from the first of these tokens on. -/
def parsed (total : Nat) : List Token → List Entity
  | [] => []
  | t :: ts => (entities total (on (t :: ts))).entities.map Prod.fst

theorem parsed_ahead {t : Token} (h : c.current = some t) :
    parsed total c.ahead = (entities total c).entities.map Prod.fst := by
  rw [ahead_of_current h, parsed, ← ahead_of_current h, on_ahead h]

theorem parsed_newLine (ts : List Token) : parsed total (.newLine :: ts) = parsed total ts := by
  cases ts with
  | nil =>
    show (entities total (on [.newLine])).entities.map Prod.fst = []
    rw [entities]
    rfl
  | cons t ts =>
    show (entities total (on (.newLine :: t :: ts))).entities.map Prod.fst = (entities total (on (t :: ts))).entities.map Prod.fst
    rw [entities]
    rfl

theorem parsed_lineBreaks (n : Nat) (ts : List Token) : parsed total (lineBreaks n ++ ts) = parsed total ts := by
  induction n with
  | zero => rfl
  | succ n ih => exact (parsed_newLine _).trans ih

/-- A declaration that does not parse ends the file. -/
theorem entities_declaration {b : Binding} (hc : c.current = some (.keyword (.binding b))) :
    (entities total c).entities.map Prod.fst =
      (declaration b c).result?.elim [] fun r => .statement r.1 :: (entities total r.2).entities.map Prod.fst := by
  rw [entities]
  simp only [hc]
  cases declaration b c <;> rfl

/-- So does a function, and after one that parses the file goes on behind its closing brace. -/
theorem entities_function (hc : c.current = some (.keyword .function)) :
    (entities total c).entities.map Prod.fst =
      (function c).result?.elim [] fun r => .function r.1 :: parsed total r.2.unread := by
  rw [entities]
  simp only [hc]
  cases function c with
  | matched f d hd =>
    obtain ⟨_, _ | ⟨t, ts⟩⟩ := d
    · rfl
    · rfl
  | _ => rfl

/-- Any other token but a line break ends it as well. -/
theorem parsed_other {t : Token} {ts : List Token} (hn : t ≠ .newLine) (hb : ∀ b, t ≠ .keyword (.binding b))
    (hf : t ≠ .keyword .function) : parsed total (t :: ts) = [] := by
  rw [parsed, entities]
  split
  · rfl
  · rename_i h
    exact absurd (Option.some.inj h) hn
  · rename_i h
    exact absurd (Option.some.inj h) (hb _)
  · rename_i h
    exact absurd (Option.some.inj h) hf
  · rfl

end Steps

/-! ## Where the file loop stops -/

/-- The file loop stops in front of these tokens, with `asked` of `total` tokens asked for: there are none, the first
begins no entity, or it begins one that does not parse. -/
inductive Halts (total : Nat) : (rest : List Token) → (ending : Ending) → (asked : Nat) → Prop
  | exhausted : Halts total [] .finished (total + 1)
  | foreign {t : Token} {ts : List Token} : t ≠ .newLine → (∀ b, t ≠ .keyword (.binding b)) → t ≠ .keyword .function →
      Halts total (t :: ts) .finished (total - ts.length)
  | declaration {b : Binding} {ts : List Token} : (declaration b (on (.keyword (.binding b) :: ts))).Fails →
      Halts total (.keyword (.binding b) :: ts) .truncated ((declaration b (on (.keyword (.binding b) :: ts))).asked total)
  | function {ts : List Token} : (function (on (.keyword .function :: ts))).Fails →
      Halts total (.keyword .function :: ts) .truncated ((function (on (.keyword .function :: ts))).asked total)

/-- The reading `r` of the tokens `ts` takes the entities that they start with, up to where the file loop stops. -/
def Accounts (total : Nat) (r : Reading) (ts : List Token) : Prop :=
  ∃ w rest, ts = w ++ rest ∧ SpellsEntities w rest (r.entities.map Prod.fst) ∧ Halts total rest r.ending r.asked

section Accounts

variable {total : Nat} {r : Reading} {v ts : List Token}

/-- Nothing is parsed where the file loop stops. -/
theorem Halts.parsed {ending : Ending} {asked : Nat} (h : Halts total ts ending asked) : parsed total ts = [] := by
  cases h with
  | exhausted => rfl
  | foreign hn hb hf => exact parsed_other hn hb hf
  | declaration hfails =>
    obtain ⟨c, hc | hc⟩ := hfails
    · rw [Grammar.parsed, entities_declaration rfl, hc]; rfl
    · rw [Grammar.parsed, entities_declaration rfl, hc]; rfl
  | function hfails =>
    obtain ⟨c, hc | hc⟩ := hfails
    · rw [Grammar.parsed, entities_function rfl, hc]; rfl
    · rw [Grammar.parsed, entities_function rfl, hc]; rfl

theorem Accounts.halt {ending : Ending} {asked : Nat} (h : Halts total ts ending asked) :
    Accounts total ⟨[], ending, asked⟩ ts :=
  ⟨[], ts, rfl, .nil, h⟩

theorem Accounts.newLine (h : Accounts total r ts) : Accounts total r (.newLine :: ts) := by
  obtain ⟨w, rest, rfl, hs, hhalt⟩ := h
  exact ⟨.newLine :: w, rest, rfl, .newLine hs, hhalt⟩

theorem Accounts.entity {e : Entity} {asked : Nat} (he : SpellsEntity v ts e) (h : Accounts total r ts) :
    Accounts total (r.cons e asked) (v ++ ts) := by
  obtain ⟨w, rest, rfl, hs, hhalt⟩ := h
  exact ⟨v ++ w, rest, (List.append_assoc v w rest).symm, .entity he hs, hhalt⟩

/-- An entity that does not parse is where the file loop stops. -/
theorem Accounts.givenUp {α : Type} {n : Nat} {o : Outcome α n} (h : o.Started) (hm : ∀ a c hc, o ≠ .matched a c hc)
    (hhalt : o.Fails → Halts total ts .truncated (o.asked total)) : Accounts total (Grammar.givenUp total o) ts := by
  cases o with
  | matched a c hc => exact absurd rfl (hm a c hc)
  | mismatched c => exact .halt (hhalt ⟨c, .inl rfl⟩)
  | exhausted c => exact .halt (hhalt ⟨c, .inr rfl⟩)
  | unstarted => exact h.elim

/-- From a cursor with a current token on, the file loop takes entities and then stops. -/
theorem accounts_entities (total : Nat) (c : Cursor) (h : c.current.isSome) :
    Accounts total (entities total c) c.ahead := by
  fun_induction entities total c with
  | case1 c hc =>
    rw [hc] at h
    cases h
  | case2 c hc hend =>
    rw [ahead_of_current hc, unread_of_advance_eq_none hend]
    exact (Accounts.halt .exhausted).newLine
  | case3 c hc d hd ih =>
    rw [ahead_of_advance hc hd]
    exact (ih (current_of_advance hd)).newLine
  | case4 c b hc s d hlt hm ih =>
    have hr : (declaration b c).result? = some (s, d) := by rw [hm]; rfl
    obtain ⟨_, _, _, w, t, rfl, hw, hs, ht, hclose⟩ := declaration_sound hc hr
    have hrest := ih (by rw [ht]; rfl)
    rw [hw]
    rw [ahead_of_current ht] at hrest ⊢
    exact hrest.entity (.declaration hs hclose)
  | case5 c b hc hm =>
    obtain ⟨_, ts⟩ := c
    cases hc
    exact .givenUp (started_declaration b _ h) hm .declaration
  | case6 c hc f d hlt hm hend =>
    have hr : (function c).result? = some (f, d) := by rw [hm]; rfl
    obtain ⟨w, hw, hs, -⟩ := function_sound hc hr
    rw [hw, unread_of_advance_eq_none hend]
    exact (Accounts.halt .exhausted).entity (.function hs)
  | case7 c hc f d hlt hm e he ih =>
    have hr : (function c).result? = some (f, d) := by rw [hm]; rfl
    obtain ⟨w, hw, hs, -⟩ := function_sound hc hr
    rw [hw, unread_of_advance he]
    exact (ih (current_of_advance he)).entity (.function hs)
  | case8 c hc hm =>
    obtain ⟨_, ts⟩ := c
    cases hc
    exact .givenUp (started_function _ h) hm .function
  | case9 c t hn hb hf hc =>
    rw [ahead_of_current hc]
    exact .halt (.foreign hn hb hf)

end Accounts

/-! ## Reading a list of entities -/

section Lists

variable {total : Nat}

/-- An entity in front is taken, and the file goes on behind it. -/
theorem parsed_entity {v rest : List Token} {e : Entity} (h : SpellsEntity v rest e) :
    parsed total (v ++ rest) = e :: parsed total rest := by
  cases h with
  | @function w rest f hs =>
    have hf := hs.function rest
    cases hs with
    | intro m n hs hb =>
      rw [List.cons_append] at hf ⊢
      rw [parsed, entities_function rfl, hf]
      rfl
  | @declaration b name type w rest v t hs ht =>
    cases hs with
    | declaration hs =>
      simp only [List.cons_append]
      rw [parsed, entities_declaration rfl, declaration_complete hs ht]
      rfl

theorem parsed_append {w rest : List Token} {es : List Entity} (h : SpellsEntities w rest es) :
    parsed total (w ++ rest) = es ++ parsed total rest := by
  induction h with
  | nil => rfl
  | newLine _ ih => exact (parsed_newLine _).trans ih
  | entity he _ ih => rw [List.append_assoc, parsed_entity he, ih, List.cons_append]

/-- Where nothing is parsed, no entity follows. -/
theorem not_continues_of_parsed {ts : List Token} (h : parsed total ts = []) : ¬ Continues ts := by
  rintro ⟨n, v, rest, e, rfl, he⟩
  rw [parsed_lineBreaks, parsed_entity he] at h
  cases h

theorem Continues.newLine {ts : List Token} (h : Continues ts) : Continues (.newLine :: ts) := by
  obtain ⟨n, v, rest, e, rfl, he⟩ := h
  exact ⟨n + 1, v, rest, e, rfl, he⟩

/-- Tokens that spell an entity and more can be continued before them. -/
theorem SpellsEntities.continues {w rest : List Token} {e : Entity} {es : List Entity} (h : SpellsEntities w rest (e :: es)) :
    Continues (w ++ rest) := by
  generalize hes : e :: es = l at h
  induction h with
  | nil => cases hes
  | newLine _ ih => exact (ih hes).newLine
  | @entity v w rest e es he _ _ => exact ⟨0, v, w ++ rest, e, List.append_assoc v w rest, he⟩

/-- The tokens start with a spelling of entities that no other entity continues. -/
def Stands (ts : List Token) (es : List Entity) : Prop :=
  ∃ w rest, ts = w ++ rest ∧ SpellsEntities w rest es ∧ ¬ Continues rest

/-- **Soundness**: what is parsed is spelled by the tokens it was parsed from, and nothing more could be. -/
theorem parsed_sound (total : Nat) (ts : List Token) : Stands ts (parsed total ts) := by
  cases ts with
  | nil => exact ⟨[], [], rfl, .nil, not_continues_of_parsed (rfl : parsed total [] = [])⟩
  | cons t ts =>
    obtain ⟨w, rest, hw, hs, hhalt⟩ := accounts_entities total (on (t :: ts)) rfl
    exact ⟨w, rest, hw, hs, not_continues_of_parsed hhalt.parsed⟩

/-- **Completeness**: entities that nothing continues are all that is parsed. -/
theorem Stands.parsed {ts : List Token} {es : List Entity} (h : Stands ts es) : parsed total ts = es := by
  obtain ⟨w, rest, rfl, hs, hno⟩ := h
  obtain ⟨v, rest', hrest, hs', -⟩ := parsed_sound total rest
  cases hp : Grammar.parsed total rest with
  | nil => rw [parsed_append hs, hp, List.append_nil]
  | cons e es' =>
    rw [hp] at hs'
    exact absurd (hrest ▸ hs'.continues) hno

/-- The number of tokens is for the count only. -/
theorem parsed_total (m n : Nat) (ts : List Token) : parsed m ts = parsed n ts :=
  (parsed_sound n ts).parsed

end Lists

/-- From a cursor with a current token on, the file loop always has one. -/
theorem ending_entities (total : Nat) (c : Cursor) (h : c.current.isSome) :
    (entities total c).ending ≠ .unstarted := by
  obtain ⟨_, _, -, -, hhalt⟩ := accounts_entities total c h
  intro hend
  rw [hend] at hhalt
  cases hhalt

/-! ## Exactness -/

theorem reading_ofTokens {tokens : List Token} (h : significant tokens ≠ []) :
    Reading.ofTokens tokens = entities (significant tokens).length (on (significant tokens)) := by
  obtain ⟨t, ts, hts⟩ := List.exists_cons_of_ne_nil h
  simp only [Reading.ofTokens, hts]
  rfl

theorem entities_ofTokens (tokens : List Token) :
    (File.ofTokens tokens).entities = parsed (significant tokens).length (significant tokens) := by
  simp only [File.ofTokens, Reading.ofTokens, Reading.file]
  cases significant tokens <;> rfl

/-- **A file is its longest list of entities.** The parser never looks at a token that is not there. The entities of a file
are spelled by the significant tokens up to a point where no entity goes on, and by no other reading; and whatever
entities the tokens start with are the first ones of the file. -/
theorem ofTokens_exact (tokens : List Token) :
    (Reading.ofTokens tokens).ending ≠ .unstarted ∧
    (∀ es, (File.ofTokens tokens).entities = es ↔
      ∃ w rest, significant tokens = w ++ rest ∧ SpellsEntities w rest es ∧ ¬ Continues rest) ∧
    ∀ w rest es, significant tokens = w ++ rest → SpellsEntities w rest es → es <+: (File.ofTokens tokens).entities := by
  rw [entities_ofTokens]
  refine ⟨?_, fun es => ⟨?_, fun h => Stands.parsed h⟩, fun w rest es hw hs => ?_⟩
  · simp only [Reading.ofTokens]
    cases significant tokens with
    | nil => nofun
    | cons t ts => exact ending_entities _ _ rfl
  · rintro rfl
    exact parsed_sound _ _
  · rw [hw, parsed_append hs]
    exact List.prefix_append _ _

/-- A declaration with a blank in it, a line break, and a function whose body does not close: the declaration alone. -/
theorem ofTokens_exact_truncated :
    SpellsEntities [.keyword (.binding .constant), .identifier "x", .colon, .identifier "Int", .operator "=",
        .literal .badChar, .newLine] [.keyword .function, .identifier "f", .endOfInput]
      [.statement (.declaration .constant "x" "Int" (.literal .badChar))] ∧
    [.statement (.declaration .constant "x" "Int" (.literal .badChar))] <+:
      (File.ofTokens [.keyword (.binding .constant), .blank, .identifier "x", .colon, .identifier "Int", .operator "=",
        .literal .badChar, .newLine, .keyword .function, .identifier "f", .endOfInput]).entities := by
  have hspells : SpellsEntities [.keyword (.binding .constant), .identifier "x", .colon, .identifier "Int", .operator "=",
        .literal .badChar, .newLine] [.keyword .function, .identifier "f", .endOfInput]
      [.statement (.declaration .constant "x" "Int" (.literal .badChar))] :=
    .entity (v := [.keyword (.binding .constant), .identifier "x", .colon, .identifier "Int", .operator "=", .literal .badChar])
      (.declaration (.declaration .literal) (by decide)) (.newLine .nil)
  exact ⟨hspells, (ofTokens_exact _).2.2 _ _ _ rfl hspells⟩

end Parlance.Grammar
