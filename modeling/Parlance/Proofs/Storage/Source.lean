import Mathlib
import Parlance.Proofs.Grammar.Simulation
import Parlance.Proofs.Storage.AllOrNothing
import Parlance.Proofs.Token.Widening

/-!
# Sources in UTF-8

A source is read byte by byte and not decoded. A source in UTF-8 is compiled to the tree of its text all the same, but for
the literals with characters outside ASCII in them: these strings have the bytes of their texts, and these character
literals are malformed (`ofBytes_toUTF8`). Characters outside ASCII anywhere else make no difference.
-/

namespace Parlance

namespace File

variable {s : List Char}

theorem ofTokens_mapLiteral {f : Literal → Literal} {us vs : List Token}
    (h : significant us = (significant vs).map (Token.mapLiteral f)) : ofTokens us = (ofTokens vs).mapLiterals f := by
  have hentities : (ofTokens us).entities = ((ofTokens vs).mapLiterals f).entities := by
    rw [mapLiterals, Grammar.entities_ofTokens, Grammar.entities_ofTokens, h]
    exact Simulation.parsed_map f _ _ _
  exact congrArg mk hentities

end File

/-- **Sources in UTF-8.** A source that holds a text in UTF-8 is parsed, and compiled, as the text with its literals read
from their bytes. Where no character outside ASCII is in quotes, that is the text itself. -/
theorem File.ofBytes_toUTF8 (s : List Char) :
    File.ofBytes (String.ofList s).toUTF8 = (File.ofText s).mapLiterals Literal.widened ∧
    (NarrowQuotes s → File.ofBytes (String.ofList s).toUTF8 = File.ofText s) ∧
    ∀ (fs : FileSystem) (job : Job) (p : Place), fs.readSource job.source = .ok (String.ofList s).toUTF8 →
      fs.target job.output = .ok p →
        (fs.compile job).1 = .ok ((File.ofText s).mapLiterals Literal.widened) ∧
        (NarrowQuotes s → (fs.compile job).1 = .ok (File.ofText s)) := by
  have hwidened : File.ofBytes (String.ofList s).toUTF8 = (File.ofText s).mapLiterals Literal.widened := by
    rw [File.ofBytes, widened_toUTF8]
    exact File.ofTokens_mapLiteral (significant_lex_widen s)
  have hsame : NarrowQuotes s → File.ofBytes (String.ofList s).toUTF8 = File.ofText s := by
    intro h
    rw [File.ofBytes, widened_toUTF8]
    exact File.ofTokens_congr (significant_lex_widen_of_narrowQuotes h)
  refine ⟨hwidened, hsame, fun fs job p hread htarget => ?_⟩
  rw [FileSystem.compile_of_readSource hread htarget]
  exact ⟨congrArg _ hwidened, fun h => congrArg _ (hsame h)⟩

/-- A comment and an unknown symbol outside ASCII, in the source `a` of a file system that holds nothing else. -/
theorem File.ofBytes_toUTF8_comment :
    NarrowQuotes "val a: A = b # é\nü".toList ∧
    (FileSystem.compile ⟨[(["a"], .file (String.ofList "val a: A = b # é\nü".toList).toUTF8)], []⟩ ⟨"a", "b"⟩).1 =
      .ok (File.ofText "val a: A = b # é\nü".toList) := by
  have hquotes : NarrowQuotes "val a: A = b # é\nü".toList := by decide
  have hsource : Path.ofText "a" = .ok ⟨["a"], false, false⟩ := by cbv
  have houtput : Path.ofText "b" = .ok ⟨["b"], false, false⟩ := by cbv
  have hread : ∀ bytes, (⟨[(["a"], .file bytes)], []⟩ : FileSystem).readSource "a" = .ok bytes := by
    intro bytes
    rw [FileSystem.readSource, FileSystem.find, hsource]
    rfl
  have htarget : ∀ bytes, (⟨[(["a"], .file bytes)], []⟩ : FileSystem).target "b" = .ok ["b"] := by
    intro bytes
    rw [FileSystem.target, houtput]
    rfl
  exact ⟨hquotes, ((File.ofBytes_toUTF8 _).2.2 _ ⟨"a", "b"⟩ _ (hread _) (htarget _)).2 hquotes⟩

/-- The bytes of an accented letter in quotes: too many for a character, and two characters of a string. -/
example : File.ofBytes "val a: A = b('é', \"é\")".toUTF8 =
    ⟨[.statement (.declaration .constant "a" "A" (.call "b" [.literal .badChar, .literal (.string "Ã©")]))]⟩ := by
  cbv

end Parlance
