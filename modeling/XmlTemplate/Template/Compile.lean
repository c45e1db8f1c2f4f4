import XmlTemplate.Format.Read
import XmlTemplate.Format.Scan

/-!
# Compiling a format string

A format string is scanned as a whole before anything is read, so a fault of a character wins over
every fault of a token, wherever they stand.
-/

namespace XmlTemplate.Template

open Format (Fault FormatError)

/-- The nodes of a format string with their offsets, checked for a single root if it is asked
for. -/
def nodesOf (singleRoot : Bool) (format : List Char) : Except Fault (List (Nat × Node)) := do
  let tokens ← Format.tokens format
  let nodes ← Format.readDocument tokens
  if singleRoot then Format.checkRoot nodes
  return nodes

/-- The template of a format string. With `singleRoot` it has to be one element that is not
repeated. -/
def compileWith (singleRoot : Bool) (format : String) : Except FormatError Template :=
  match nodesOf singleRoot format.toList with
  | .ok nodes => .ok ⟨nodes.map Prod.snd⟩
  | .error fault => .error (.ofFault format.toList fault)

/-- The template of a format string, whatever its nodes are. -/
def compile (format : String) : Except FormatError Template := compileWith false format

end XmlTemplate.Template
