import XmlTemplate.Text.Quoted

/-!
# Tokens

A format string is read as a stream of tokens, each with the offset of its first character. The
stream ends with the offset of the end of the input, so that every position in it can be named.

Results:
1. `Tokens.size_done`, `Tokens.size_next`: the number of tokens before the end.
-/

namespace XmlTemplate.Format

/-- A token of the format language. -/
inductive Token where
  | less
  | greater
  | ampersand
  | equals
  | dot
  | question
  | star
  | tilde
  | openBrace
  | closeBrace
  /-- A run of bare characters. -/
  | bare (word : String)
  /-- A text in quotes, with its escapes resolved. -/
  | quoted (text : String)
  deriving DecidableEq, Repr

/-- The sign that stands for itself. -/
def Token.sign? : Char → Option Token
  | '<' => some .less
  | '>' => some .greater
  | '&' => some .ampersand
  | '=' => some .equals
  | '.' => some .dot
  | '?' => some .question
  | '*' => some .star
  | '~' => some .tilde
  | '\x7b' => some .openBrace
  | '\x7d' => some .closeBrace
  | _ => none

/-- The token as messages show it. -/
def Token.text : Token → String
  | .less => "'<'"
  | .greater => "'>'"
  | .ampersand => "'&'"
  | .equals => "'='"
  | .dot => "'.'"
  | .question => "'?'"
  | .star => "'*'"
  | .tilde => "'~'"
  | .openBrace => "'\x7b'"
  | .closeBrace => "'\x7d'"
  | .bare word => "bare token '" ++ word ++ "'"
  | .quoted text => "quoted token " ++ Text.quoted text

/-- Tokens with their offsets, up to the end of the input. -/
inductive Tokens where
  /-- The end of the input, at its offset. -/
  | done (offset : Nat)
  /-- A token at its offset, and the tokens after it. -/
  | next (token : Token) (offset : Nat) (rest : Tokens)
  deriving DecidableEq, Repr

namespace Tokens

/-- The offset at which the stream goes on. -/
def offset : Tokens → Nat
  | .done offset => offset
  | .next _ offset _ => offset

/-- The token at which the stream goes on, if it is not at its end. -/
def first? : Tokens → Option Token
  | .done _ => none
  | .next token _ _ => some token

/-- The number of tokens before the end. -/
def size : Tokens → Nat
  | .done _ => 0
  | .next _ _ rest => rest.size + 1

@[simp] theorem size_done (offset : Nat) : (done offset).size = 0 := rfl

@[simp] theorem size_next (token : Token) (offset : Nat) (rest : Tokens) :
    (next token offset rest).size = rest.size + 1 := rfl

/-- The tokens with their offsets; the end of the input is the last, as no token. -/
def toList : Tokens → List (Option Token × Nat)
  | .done offset => [(none, offset)]
  | .next token offset rest => (some token, offset) :: rest.toList

end Tokens

end XmlTemplate.Format
