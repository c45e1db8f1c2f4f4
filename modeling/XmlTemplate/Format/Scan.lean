import XmlTemplate.Format.Alphabet
import XmlTemplate.Format.Fault

/-!
# From characters to tokens

Scanning goes from left to right and stops at the first fault. Outside quotes there is no space
between tokens: a sign is a token, a longest run of bare characters is a token, and a quote opens a
text that ends at the next quote without a backslash before it.

Results:
1. `Tokens.extend_next_bare`, `Tokens.extend_of_ne`: a bare character joins the bare word after it.
-/

namespace XmlTemplate.Format

/-- The meaning of the character after a backslash. -/
def resolve? : Char → Option Char
  | '"' => some '"'
  | '\\' => some '\\'
  | 't' => some '\t'
  | 'n' => some '\n'
  | _ => none

/-- A bare character in front of the tokens after it: it joins a bare word that follows. -/
def Tokens.extend (c : Char) (offset : Nat) : Tokens → Tokens
  | .next (.bare word) _ rest => .next (.bare (c.toString ++ word)) offset rest
  | tokens => .next (.bare c.toString) offset tokens

theorem Tokens.extend_next_bare (c : Char) (offset start : Nat) (word : String) (rest : Tokens) :
    Tokens.extend c offset (.next (.bare word) start rest) =
      .next (.bare (c.toString ++ word)) offset rest := rfl

theorem Tokens.extend_of_ne {c : Char} {offset : Nat} {tokens : Tokens}
    (other : ∀ word, tokens.first? ≠ some (.bare word)) :
    tokens.extend c offset = .next (.bare c.toString) offset tokens := by
  unfold Tokens.extend
  split
  · simp [Tokens.first?] at other
  · rfl

mutual
/-- The tokens of the characters from `offset` on. -/
def scan (offset : Nat) : List Char → Except Fault Tokens
  | [] => .ok (.done offset)
  | c :: chars =>
    match Token.sign? c with
    | some token => (scan (offset + 1) chars).map (.next token offset)
    | none =>
      if c = '"' then scanQuoted offset (offset + 1) [] chars
      else if c = '\\' then .error ⟨offset, .token, .backslash⟩
      else if Text.isBlank c then .error ⟨offset, .token, .blank c⟩
      else (scan (offset + 1) chars).map (.extend c offset)

/-- The tokens from inside a quoted text that was opened at `start`, whose characters so far are
`seen`, the last one first. -/
def scanQuoted (start offset : Nat) (seen : List Char) : List Char → Except Fault Tokens
  | [] => .error ⟨start, .closingQuote, .endOfInput⟩
  | '"' :: chars =>
    (scan (offset + 1) chars).map (.next (.quoted (String.ofList seen.reverse)) start)
  | '\\' :: [] => .error ⟨start, .closingQuote, .endOfInput⟩
  | '\\' :: escape :: chars =>
    match resolve? escape with
    | some c => scanQuoted start (offset + 2) (c :: seen) chars
    | none => .error ⟨offset, .escape, .unknownEscape escape⟩
  | c :: chars => scanQuoted start (offset + 1) (c :: seen) chars
end

/-- The tokens of a format string. -/
def tokens (format : List Char) : Except Fault Tokens := scan 0 format

end XmlTemplate.Format
