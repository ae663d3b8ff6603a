import Parlance.Text.Quoted
import Parlance.Token

/-!
# Tokens in words

How a message names a token. Integers are shown in their own radix, strings and characters quoted, names as they are.
-/

namespace Parlance

/-- A literal as the language writes it; a malformed one in angle brackets. -/
def Literal.display : Literal → List Char
  | integer r v => r.numeral v.toNat
  | string s => quoted '"' s.toList
  | badString => "<bad string literal>".toList
  | char c => quoted '\'' [c]
  | badChar => "<bad char literal>".toList

def Token.display : Token → List Char
  | identifier name => "identifier '".toList ++ name.toList ++ "'".toList
  | operator symbols => "operator '".toList ++ symbols.toList ++ "'".toList
  | literal l => "literal ".toList ++ l.display
  | keyword k => "'".toList ++ k.spelling.toList ++ "'".toList
  | leftParen => "'('".toList
  | rightParen => "')'".toList
  | leftCurl => "'\x7b'".toList
  | rightCurl => "'\x7d'".toList
  | colon => "':'".toList
  | comma => "','".toList
  | newLine => "newline".toList
  | blank => "whitespace".toList
  | comment => "comment".toList
  | unknown => "unknown symbol".toList
  | endOfInput => "end of file".toList

end Parlance
