import XmlTemplate.Format.Alphabet
import XmlTemplate.Template.Basic

/-!
# Spelling expressions

Messages show an expression as it would be written in a format string: words without quotes where
that is possible.

Results:
1. `Step.spellings_append`, `Expr.spelling_ofSteps`: runs of segments are spelled one after another.
-/

namespace XmlTemplate

namespace Format

/-- The spelling of a character inside quotes. -/
def escaped : Char → List Char
  | '"' => ['\\', '"']
  | '\\' => ['\\', '\\']
  | '\t' => ['\\', 't']
  | '\n' => ['\\', 'n']
  | c => [c]

/-- The text between quotes. -/
def quote (text : String) : String :=
  String.ofList ('"' :: (text.toList.flatMap escaped ++ ['"']))

/-- The text as a word without quotes if that is possible, and between quotes otherwise. -/
def word (text : String) : String := if isBareWord text then text else quote text

end Format

/-- The segment as it is written after its dot. -/
def Step.spelling : Step → String
  | .key name => Format.word name
  | .index digits => digits

/-- A run of segments, each after a dot. -/
def Step.spellings : List Step → String
  | [] => ""
  | step :: steps => "." ++ step.spelling ++ spellings steps

/-- The expression as it is written in a format string. -/
def Expr.spelling : Expr → String
  | .literal text => Format.word text
  | .current => "?"
  | .chain base steps => base.spelling ++ Step.spellings steps

theorem Step.spellings_append (front back : List Step) :
    spellings (front ++ back) = spellings front ++ spellings back := by
  induction front with
  | nil => simp [spellings]
  | cons step front ih => simp [spellings, ih, String.append_assoc]

theorem Expr.spelling_ofSteps (steps : List Step) :
    (ofSteps steps).spelling = "?" ++ Step.spellings steps := by
  cases steps <;> rfl

end XmlTemplate
