import Parlance.Proofs.Grammar.File
import Parlance.Proofs.Token.Shape
import Parlance.Proofs.Tree.Image
import Parlance.Proofs.Tree.Layout

/-!
# From trees to texts and back

A well-formed file in which no string is unclosed is parsed from the text that it is rendered to: its tokens are found again,
they spell its entities, and nothing goes on behind them (`ofText_render`). The other way round, every text without end
marks is parsed to a well-formed file, in which an unclosed string ends its line (`wellFormed_ofText`,
`closedButLast_ofText`). So a file without unclosed strings is parsed from some text exactly if it is well formed.
-/

namespace Parlance.File

open Grammar

/-! ## Rendered files -/

/-- No entity starts with the end token. -/
theorem not_continues_end : ¬ Continues [.endOfInput] :=
  not_continues_of_parsed (parsed_other nofun nofun nofun : parsed 0 [.endOfInput] = [])

theorem lex_render {f : File} (h : f.WellFormed) (hclosed : f.Closed) : lex f.render = f.layout ++ [Token.endOfInput] :=
  lex_text (proper_layout h) (spaced_layout hclosed)

theorem endMark_notMem_render {f : File} (h : f.WellFormed) : endMark ∉ f.render :=
  endMark_notMem_flatMap (proper_layout h)

theorem ofText_render {f : File} (h : f.WellFormed) (hclosed : f.Closed) : ofText f.render = f := by
  have htokens : significant (f.layout ++ [Token.endOfInput]) = significant f.layout ++ [Token.endOfInput] :=
    List.filter_append f.layout [.endOfInput]
  have hstands : Stands (significant (f.layout ++ [Token.endOfInput])) f.entities :=
    ⟨significant f.layout, [.endOfInput], htokens, spells_layout h _, not_continues_end⟩
  have hentities : (ofText f.render).entities = f.entities := by
    rw [ofText, lex_render h hclosed, entities_ofTokens]
    exact hstands.parsed
  exact congrArg File.mk hentities

/-! ## Parsed files -/

section Parsed

variable {text : List Char}

/-- The entities of a parsed file are spelled by proper tokens, and each unclosed string among them ends its line. -/
theorem spelled_ofText (h : endMark ∉ text) : ∃ w rest, SpellsEntities w rest (ofText text).entities ∧
    (∀ t ∈ w, t.Proper) ∧ ClosesLines (w ++ rest) := by
  obtain ⟨w, rest, hw, hs, -⟩ := parsed_sound (significant (lex text)).length (significant (lex text))
  rw [← entities_ofTokens] at hs
  refine ⟨w, rest, hs, fun t ht => ?_, ?_⟩
  · have hmem : t ∈ significant (lex text) := hw ▸ List.mem_append_left rest ht
    exact proper_of_mem_lex h t (List.mem_filter.mp hmem).1
  · rw [← hw]
    exact closesLines_significant (closesLines_lex text)

theorem wellFormed_ofText (h : endMark ∉ text) : (ofText text).WellFormed := by
  obtain ⟨w, rest, hs, hproper, -⟩ := spelled_ofText h
  exact hs.wellFormed hproper

theorem closedButLast_ofText (h : endMark ∉ text) : (ofText text).ClosedButLast := by
  obtain ⟨w, rest, hs, -, hends⟩ := spelled_ofText h
  exact hs.closedButLast hends

end Parsed

/-! ## The round trip -/

/-- **Texts and trees**. A well-formed file without unclosed strings is parsed from the text that it is rendered to; a parsed
file is well formed, and a string in it is unclosed only as the rightmost leaf of a value. Of the files without unclosed
strings, exactly the well-formed ones are parsed from some text. -/
theorem ofText_roundTrip :
    (∀ f : File, f.WellFormed → f.Closed → endMark ∉ f.render ∧ ofText f.render = f) ∧
    (∀ text, endMark ∉ text → (ofText text).WellFormed ∧ (ofText text).ClosedButLast) ∧
    ∀ f : File, f.Closed → ((∃ text, endMark ∉ text ∧ ofText text = f) ↔ f.WellFormed) := by
  refine ⟨fun f h hclosed => ⟨endMark_notMem_render h, ofText_render h hclosed⟩,
    fun text h => ⟨wellFormed_ofText h, closedButLast_ofText h⟩, fun f hclosed => ⟨?_, fun h => ?_⟩⟩
  · rintro ⟨text, h, rfl⟩
    exact wellFormed_ofText h
  · exact ⟨f.render, endMark_notMem_render h, ofText_render h hclosed⟩

/-- A declaration of a text with a quote and a line feed in it, and of a call with a malformed character. -/
def sample : File :=
  ⟨[.statement (.declaration .constant "x" "T"
    (.binary "+" (.literal (.string "a\"\n")) (.call "f" [.literal .badChar])))]⟩

theorem ofText_roundTrip_sample :
    sample.render = "val x: T = (\"a\\\"\\n\") + (f(''))\n".toList ∧ ofText sample.render = sample ∧
      (ofText "val x: T = y + \"a".toList).ClosedButLast := by
  have hx : IsName "x" := by decide
  have ht : IsName "T" := by decide
  have hf : IsName "f" := by decide
  have ho : IsOperator "+" := by decide
  have hs : Literal.Proper (.string "a\"\n") := by
    unfold Literal.Proper
    decide
  have hv : Expr.WellFormed (.binary "+" (.literal (.string "a\"\n")) (.call "f" [.literal .badChar])) :=
    ⟨ho, hs, hf, List.cons_ne_nil _ _, trivial, trivial⟩
  have hwell : sample.WellFormed := List.forall_mem_singleton.mpr ⟨hx, ht, hv⟩
  have hclosed : sample.Closed := List.forall_mem_singleton.mpr ⟨nofun, nofun, trivial⟩
  exact ⟨by decide, (ofText_roundTrip.1 sample hwell hclosed).2, (ofText_roundTrip.2.1 _ (by decide)).2⟩

end Parlance.File
