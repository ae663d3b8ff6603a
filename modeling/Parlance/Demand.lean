import Parlance.Grammar.File
import Parlance.Token.Stream

/-!
# How much of a text a parse takes

The parser asks for significant tokens; behind it stand the tokens of every kind, and behind those the characters. What it
asks for fixes how many of them are taken.
-/

namespace Parlance

/-- How many calls for a token it takes to serve `asked` calls for a significant one. A call that finds no token is the
last. -/
def pulls : (asked : Nat) → List Token → Nat
  | 0, _ => 0
  | _ + 1, [] => 1
  | asked + 1, t :: ts => pulls (if t.isTrivia then asked + 1 else asked) ts + 1

/-- How many tokens of every kind are taken. -/
def taken (asked : Nat) (tokens : List Token) : Nat := min (pulls asked tokens) tokens.length

/-- The stream of a text and its end mark. -/
def TokenStream.closing (text : List Char) : TokenStream := .ofText (text ++ [endMark])

/-- How many characters of a text are read, the end mark not counted. -/
def charactersRead (asked : Nat) (text : List Char) : Nat :=
  min text.length (text.length + 1 - ((TokenStream.closing text).after (pulls asked (lex text))).unread.length)

end Parlance
