import Mathlib
import Parlance.Proofs.Grammar.File
import Parlance.Proofs.Grammar.Rest
import Parlance.Proofs.Token.Line

/-!
# A text in front of another

The entities of a text that ends its last line are the first entities of every longer text. Behind the line end the
automaton has nothing open, so that the tokens of the longer text are those of the first one without its end token, and
then those of the rest (`significant_lex_append`). The file loop takes the same entities from them and goes on where it
stopped (`entities_append`). If it stopped on the end token, it takes the entities of the rest as well; if it never asked
for the end token it stops there again, since what it did was decided by the tokens it took (`Halts.replace`).
-/

namespace Parlance

open Grammar Cursor

/-! ## Other tokens in place of the last -/

section Tokens

variable {total : Nat} {ts : List Token}

/-- A production that fails without having asked for the last token fails whatever stands in its place. -/
theorem result?_replace {α : Type} {f : (c : Cursor) → Outcome α c.unread.length}
    (hf : ∀ (N : Nat) (cur : Bool → Cursor), (∀ i, (cur i).unread.length < N) → Uniform cur fun i => f (cur i))
    {t z : Token} (hfails : (f (on (t :: (ts ++ [z])))).Fails) (hasked : (f (on (t :: (ts ++ [z])))).asked total < total)
    (v : List Token) : (f (on (t :: (ts ++ v)))).result? = none := by
  have halike := Uniform.replace hf v (List.cons_ne_nil z []) (hfails.left_pos hasked)
  obtain ⟨c, hc⟩ := hfails
  rw [on_cons] at hc ⊢
  generalize f ⟨some t, ts ++ [z]⟩ = o at halike hc
  generalize f ⟨some t, ts ++ v⟩ = o' at halike
  cases halike with
  | matched => rcases hc with hc | hc <;> cases hc
  | mismatched => rfl
  | unstarted => rfl

/-- Where the file loop stops without having asked for the end token, it stops whatever stands in its place. -/
theorem Grammar.Halts.replace {ending : Ending} {asked : Nat} (h : Halts total (ts ++ [Token.endOfInput]) ending asked)
    (hasked : asked < total) (n : Nat) (v : List Token) : Grammar.parsed n (ts ++ v) = [] := by
  cases ts with
  | nil =>
    cases h with
    | foreign => exact absurd hasked (Nat.lt_irrefl total)
  | cons t ts =>
    rw [List.cons_append] at h ⊢
    cases h with
    | foreign hn hb hf => exact parsed_other hn hb hf
    | declaration hfails =>
      have hnone := result?_replace (fun N _ hN => uniform_declaration _ hN) hfails hasked v
      rw [Grammar.parsed, entities_declaration rfl, hnone]
      rfl
    | function hfails =>
      have hnone := result?_replace (fun N _ hN => uniform_function hN) hfails hasked v
      rw [Grammar.parsed, entities_function rfl, hnone]
      rfl

/-- Where the file loop stops with all tokens asked for and nothing begun, it stops on the last. -/
theorem Grammar.Halts.eq_nil {asked : Nat} {z : Token} (h : Halts total (ts ++ [z]) .finished asked) (htotal : 0 < total)
    (hasked : total ≤ asked) : ts = [] := by
  cases ts with
  | nil => rfl
  | cons t ts =>
    rw [List.cons_append] at h
    cases h with
    | foreign =>
      rw [List.length_append, List.length_singleton] at hasked
      omega

theorem accounts_ofTokens {tokens : List Token} (h : significant tokens ≠ []) :
    Accounts (significant tokens).length (Reading.ofTokens tokens) (significant tokens) := by
  obtain ⟨t, ts, hts⟩ := List.exists_cons_of_ne_nil h
  have haccounts := accounts_entities (significant tokens).length (on (significant tokens)) (by rw [hts]; rfl)
  rwa [ahead_on, ← reading_ofTokens h] at haccounts

end Tokens

/-! ## Texts that end their last line -/

/-- The text is empty or ends in a line feed. -/
def EndsLine (text : List Char) : Prop := text = [] ∨ text.getLast? = some '\n'

instance (text : List Char) : Decidable (EndsLine text) :=
  inferInstanceAs (Decidable (text = [] ∨ text.getLast? = some '\n'))

section Texts

variable {s : List Char}

theorem EndsLine.run (h : EndsLine s) : (Automaton.fresh.run s).1 = .fresh := by
  rcases h with rfl | h
  · rfl
  · obtain ⟨s', rfl⟩ := List.getLast?_eq_some_iff.mp h
    exact Automaton.run_lineFeed _ _

/-- The tokens of such a text end in a line break too. -/
theorem EndsLine.significant (h : EndsLine s) {t : Token} (ht : (significant (tokensOf s)).getLast? = some t) :
    t = .newLine := by
  rcases h with rfl | h
  · cases ht
  · obtain ⟨s', rfl⟩ := List.getLast?_eq_some_iff.mp h
    rw [← lineTokens, lineTokens_eq, ← List.append_assoc, List.getLast?_concat] at ht
    exact (Option.some.inj ht).symm

theorem significant_lex_append (h : EndsLine s) (t : List Char) :
    significant (lex (s ++ t)) = significant (tokensOf s) ++ significant (lex t) := by
  rw [lex_append_of_fresh h.run, significant_append]

theorem significant_lex (h : EndsLine s) : significant (lex s) = significant (tokensOf s) ++ [Token.endOfInput] := by
  have hlex := significant_lex_append h []
  rwa [List.append_nil] at hlex

/-- The entities of the text in front come first. What follows them is parsed from where the file loop stopped, with the
tokens of the rest in place of the end token. -/
theorem entities_append (h : EndsLine s) (t : List Char) : ∃ u,
    (File.ofText (s ++ t)).entities = (File.ofText s).entities ++ parsed 0 (u ++ significant (lex t)) ∧
      Halts (significant (lex s)).length (u ++ [Token.endOfInput]) (Reading.ofTokens (lex s)).ending
        (Reading.ofTokens (lex s)).asked := by
  have hlex := significant_lex h
  obtain ⟨w, rest, hw, hs, hhalts⟩ := accounts_ofTokens (by simp [hlex] : significant (lex s) ≠ [])
  rw [hlex] at hw
  obtain ⟨u, rfl, hu⟩ := hs.endOfInput hw
  refine ⟨u, ?_, hhalts⟩
  have hreplace : SpellsEntities w (u ++ significant (lex t)) (File.ofText s).entities := by
    refine hs.replace ?_
    cases u with
    | nil =>
      refine .inr fun x hx => ?_
      rw [List.append_nil] at hu
      rw [← hu] at hx
      rw [h.significant hx]
      rfl
    | cons x us =>
      refine .inl ?_
      rintro ⟨_, _, hx, hclose⟩
      cases hx
      exact ⟨x, _, rfl, hclose⟩
  rw [File.ofText, entities_ofTokens, significant_lex_append h, hu, List.append_assoc, parsed_append hreplace,
    parsed_total _ 0]

end Texts

/-- **Texts behind each other.** The entities of a text that ends its last line come first in every longer text. If the
parser stopped on the end token with nothing begun, the entities of the rest follow; if it never asked for the end token,
nothing does. -/
theorem File.entities_ofText_append {s : List Char} (h : EndsLine s) (t : List Char) :
    (File.ofText s).entities <+: (File.ofText (s ++ t)).entities ∧
    ((Reading.ofTokens (lex s)).ending = .finished →
      (significant (lex s)).length ≤ (Reading.ofTokens (lex s)).asked →
      (File.ofText (s ++ t)).entities = (File.ofText s).entities ++ (File.ofText t).entities) ∧
    ((Reading.ofTokens (lex s)).asked < (significant (lex s)).length →
      (File.ofText (s ++ t)).entities = (File.ofText s).entities) := by
  obtain ⟨u, hentities, hhalts⟩ := entities_append h t
  refine ⟨⟨_, hentities.symm⟩, fun hending hasked => ?_, fun hasked => ?_⟩
  · rw [hending] at hhalts
    have hu : u = [] := hhalts.eq_nil (by simp [significant_lex h]) hasked
    rw [hentities, hu, List.nil_append, parsed_total 0 (significant (lex t)).length, ← entities_ofTokens]
    rfl
  · rw [hentities, hhalts.replace hasked, List.append_nil]

/-- In front of a declaration: one that is complete, and one with a parenthesis behind it that begins no entity. -/
theorem File.entities_ofText_append_declarations :
    EndsLine "var a: A = 0\n".toList ∧
    (File.ofText ("var a: A = 0\n".toList ++ "val b: B = a".toList)).entities =
      (File.ofText "var a: A = 0\n".toList).entities ++ (File.ofText "val b: B = a".toList).entities ∧
    EndsLine "var a: A = 0\n)\n".toList ∧
    (File.ofText ("var a: A = 0\n)\n".toList ++ "val b: B = a".toList)).entities =
      (File.ofText "var a: A = 0\n)\n".toList).entities := by
  have hclosed : EndsLine "var a: A = 0\n".toList := by decide
  have hstopped : EndsLine "var a: A = 0\n)\n".toList := by decide
  refine ⟨hclosed, ?_, hstopped, ?_⟩
  · exact (entities_ofText_append hclosed "val b: B = a".toList).2.1 (by cbv) (by cbv)
  · exact (entities_ofText_append hstopped "val b: B = a".toList).2.2 (by cbv)

end Parlance
