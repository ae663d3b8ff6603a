import Parlance.Token.Automaton

/-!
# Tokens on demand

A **stream** reads no more characters than its next token needs. A character that completes two tokens leaves the second
one pending.
-/

namespace Parlance

structure TokenStream where
  /-- The characters not yet read. -/
  unread : List Char
  automaton : Automaton
  /-- Completed tokens that nobody has taken. -/
  pending : List Token

namespace TokenStream

def ofText (text : List Char) : TokenStream := ⟨text, .fresh, []⟩

/-- Reads characters until one completes a token, or all of them. -/
def refill (a : Automaton) : List Char → TokenStream
  | [] => ⟨[], a, []⟩
  | c :: cs =>
    match a.feed c with
    | (b, []) => refill b cs
    | (b, t :: ts) => ⟨cs, b, t :: ts⟩

/-- The next token, if there is one, and the stream after it. -/
def next (s : TokenStream) : Option Token × TokenStream :=
  match s.pending with
  | t :: ts => (some t, { s with pending := ts })
  | [] =>
    let r := refill s.automaton s.unread
    (r.pending.head?, { r with pending := r.pending.tail })

/-- The stream after `n` calls of `next`. -/
def after (s : TokenStream) : Nat → TokenStream
  | 0 => s
  | n + 1 => s.next.2.after n

/-- The tokens that the next call completes. -/
def burst (s : TokenStream) : List Token :=
  match s.pending with
  | _ :: _ => []
  | [] => (refill s.automaton s.unread).pending

/-- The tokens that `n` calls of `next` complete; the last of them may stay pending. -/
def completed (s : TokenStream) : Nat → List Token
  | 0 => []
  | n + 1 => s.burst ++ s.next.2.completed n

/-- The answers of `n` calls of `next`, each with the number of characters unread after it. -/
def calls (s : TokenStream) : Nat → List (Option Token × Nat)
  | 0 => []
  | n + 1 => (s.next.1, s.next.2.unread.length) :: s.next.2.calls n

end TokenStream

end Parlance
