import Parlance.Proofs.Token.MaximalMunch

/-!
# Proper tokens

A **proper** token holds what its kind promises: a name is a whole word and not reserved, an operator is a run of symbols,
and no character of a literal is the end mark.
-/

namespace Parlance

/-- A letter or an underscore, and then letters, digits and underscores. -/
def IsWord : List Char → Prop
  | [] => False
  | c :: cs => isWordStart c = true ∧ cs.all isWordPart = true

/-- A word that is not reserved. -/
def IsName (name : String) : Prop := IsWord name.toList ∧ Keyword.ofSpelling? name = none

/-- A run of operator symbols. -/
def IsOperator (symbols : String) : Prop := symbols.toList ≠ [] ∧ symbols.toList.all isOperatorSymbol = true

instance : ∀ w, Decidable (IsWord w)
  | [] => inferInstanceAs (Decidable False)
  | c :: cs => inferInstanceAs (Decidable (isWordStart c = true ∧ cs.all isWordPart = true))

instance (name : String) : Decidable (IsName name) :=
  inferInstanceAs (Decidable (IsWord name.toList ∧ Keyword.ofSpelling? name = none))

instance (symbols : String) : Decidable (IsOperator symbols) :=
  inferInstanceAs (Decidable (symbols.toList ≠ [] ∧ symbols.toList.all isOperatorSymbol = true))

def Literal.Proper : Literal → Prop
  | string s => endMark ∉ s.toList
  | char c => c ≠ endMark
  | _ => True

def Token.Proper : Token → Prop
  | identifier name => IsName name
  | operator o => IsOperator o
  | literal l => l.Proper
  | _ => True

theorem proper_ofWord {word : List Char} (h : IsWord word) : (Token.ofWord (.ofList word)).Proper := by
  unfold Token.ofWord
  cases hk : Keyword.ofSpelling? (.ofList word) with
  | some k => trivial
  | none => exact ⟨by rwa [String.toList_ofList], hk⟩

/-- No escape stands for an end mark. -/
theorem resolveEscape_ne_endMark {c v : Char} (h : resolveEscape c = some v) : v ≠ endMark := by
  unfold resolveEscape at h
  split at h <;> cases h <;> decide

end Parlance
