import Parlance.Demand
import Parlance.Token.Display

/-!
# What happens while a file is parsed

The events of a parse in the order in which they happen: a token is completed, an entity is complete, an entity is given up.
Tokens are completed only as the parser asks for them, so an entity is reported between the token behind it and the next.
-/

namespace Parlance

inductive Event where
  | completed (token : Token)
  /-- The entity with this index, counted from zero. -/
  | parsed (index : Nat)
  /-- An entity does not parse and ends the file, which has this many. -/
  | truncated (parsed : Nat)

namespace Event

/-- How much detail an event belongs to. -/
inductive Level where
  | debug
  | trace

def level : Event → Level
  | completed _ => .trace
  | parsed _ => .trace
  | truncated _ => .debug

def message : Event → String
  | completed _ => "emitted token"
  | parsed _ => "parsed top-level entity"
  | truncated _ => "top-level entity did not parse, truncating file"

/-- What an event is about: a name and a text. -/
def subject : Event → String × List Char
  | completed token => ("token", token.display)
  | parsed index => ("index", Radix.decimal.digits index)
  | truncated count => ("parsed", Radix.decimal.digits count)

/-- The events from the entity with an index on. The stream has served `made` calls, and each entity comes with the
number of calls after which it was complete. -/
def fromEntity (s : TokenStream) (made index : Nat) (ending : Ending) (last : Nat) : List Nat → List Event
  | [] =>
    (s.completed (last - made)).map completed ++ if ending = .truncated then [truncated index] else []
  | calls :: rest =>
    (s.completed (calls - made)).map completed ++
      parsed index :: fromEntity (s.after (calls - made)) calls (index + 1) ending last rest

end Event

/-- The events of parsing a text as a file. -/
def trace (text : List Char) : List Event :=
  let tokens := lex text
  let r := Reading.ofTokens tokens
  Event.fromEntity (.closing text) 0 0 r.ending (pulls r.asked tokens) (r.entities.map fun e => pulls e.2 tokens)

end Parlance
