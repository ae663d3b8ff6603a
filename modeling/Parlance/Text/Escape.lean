/-!
# Escapes in quoted literals

The character that a backslash and one more character stand for. Strings and characters share the table.
-/

namespace Parlance

/-- The character that stands after a backslash, resolved; `none` outside the table. -/
def resolveEscape : Char → Option Char
  | 'n' => some '\n'
  | 'r' => some '\r'
  | 't' => some '\t'
  | 'b' => some '\x08'
  | '\\' => some '\\'
  | '\'' => some '\''
  | '"' => some '"'
  | '$' => some '$'
  | _ => none

end Parlance
