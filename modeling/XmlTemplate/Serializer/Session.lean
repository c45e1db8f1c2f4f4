import XmlTemplate.Serializer.Basic
import XmlTemplate.Xml.WellFormed

/-!
# Sessions

A session is a serializer, the format string it was compiled from, and a buffer that objects are
written into. The serializer can be replaced; if the new format string is faulty, nothing changes.

Results:
1. `Compiled.change`: whatever is done, the serializer stays the one of the format string.
2. `Reached.recompile_self`: compiling again without anything new changes nothing.
-/

namespace XmlTemplate

open Format (FormatError)
open Render (RenderError Sink)

/-- A serializer with its format string and a buffer. -/
structure Session where
  serializer : Serializer
  format : String
  buffer : String

namespace Session

/-- A session with an empty buffer. -/
def start (format : String) (settings : Settings) : Except FormatError Session :=
  (Serializer.compile format settings).map fun serializer => ⟨serializer, format, ""⟩

/-- An object is written at the end of the buffer, and what was written before an error stays. -/
def write (session : Session) (root : Object) : Except RenderError Unit × Session :=
  let (result, sink) := session.serializer.serializeTo root (.unbounded session.buffer)
  (result, { session with buffer := sink.text })

/-- A text is put at the end of the buffer. -/
def push (session : Session) (text : String) : Session :=
  { session with buffer := session.buffer ++ text }

/-- The buffer is emptied. -/
def clear (session : Session) : Session := { session with buffer := "" }

/-- The buffer becomes a document. -/
def wrap (session : Session) : Session :=
  { session with
      buffer := Xml.document session.buffer session.serializer.settings.encoding }

/-- The number of elements in the buffer. -/
def check (session : Session) : Except Xml.XmlError Nat := Xml.checkWellFormed session.buffer

/-- The serializer is compiled again, from another format string or with other settings if they are
given. The answer tells whether the template is the same as before. -/
def recompile (session : Session) (format? : Option String) (singleRoot? : Option Bool)
    (encoding? : Option String) : Except FormatError (Bool × Session) := do
  let format := format?.getD session.format
  let old := session.serializer.settings
  let settings : Settings := ⟨singleRoot?.getD old.singleRoot, encoding?.getD old.encoding⟩
  let serializer ← Serializer.compile format settings
  let same := decide (serializer.template = session.serializer.template)
  return (same, { session with serializer := serializer, format := format })

/-! ## What a session keeps -/

/-- The serializer is what the format string compiles to with the settings. -/
def Compiled (session : Session) : Prop :=
  Serializer.compile session.format session.serializer.settings = .ok session.serializer

/-- What can be done with a session. -/
inductive Change (session : Session) : Session → Prop
  | write (root : Object) : Change session (session.write root).2
  | push (text : String) : Change session (session.push text)
  | clear : Change session session.clear
  | wrap : Change session session.wrap
  | recompile {format? : Option String} {singleRoot? : Option Bool} {encoding? : Option String}
      {same : Bool} {after : Session} :
      session.recompile format? singleRoot? encoding? = .ok (same, after) → Change session after

/-- A session that was started and then changed any number of times. -/
inductive Reached : Session → Prop
  | start {format : String} {settings : Settings} {session : Session} :
      start format settings = .ok session → Reached session
  | change {session after : Session} : Reached session → Change session after → Reached after

variable {session after : Session}

theorem compiled_of_compile {format : String} {settings : Settings} {serializer : Serializer}
    (compiled : Serializer.compile format settings = .ok serializer) (buffer : String) :
    Compiled ⟨serializer, format, buffer⟩ := by
  show Serializer.compile format serializer.settings = .ok serializer
  rw [Serializer.settings_of_compile compiled, compiled]

theorem compiled_of_start {format : String} {settings : Settings}
    (started : start format settings = .ok session) : session.Compiled := by
  unfold start at started
  cases compiled : Serializer.compile format settings with
  | error error =>
    rw [compiled] at started
    cases started
  | ok serializer =>
    rw [compiled] at started
    cases started
    exact compiled_of_compile compiled ""

theorem compiled_of_recompile {format? : Option String} {singleRoot? : Option Bool}
    {encoding? : Option String} {same : Bool}
    (done : session.recompile format? singleRoot? encoding? = .ok (same, after)) :
    after.Compiled := by
  simp only [recompile, bind, Except.bind, pure, Except.pure] at done
  split at done
  · cases done
  · rename_i serializer compiled
    cases done
    exact compiled_of_compile compiled session.buffer

/-- Nothing but compiling changes the serializer or the format string. -/
theorem Compiled.change (compiled : session.Compiled) (change : Change session after) :
    after.Compiled := by
  cases change with
  | write | push | clear | wrap => exact compiled
  | recompile done => exact compiled_of_recompile done

theorem Reached.compiled (reached : Reached session) : session.Compiled := by
  induction reached with
  | start started => exact compiled_of_start started
  | change _ change ih => exact ih.change change

/-- Compiling again without anything new gives the same template and changes nothing, whatever was done
with the session before. -/
theorem Reached.recompile_self (reached : Reached session) :
    session.recompile none none none = .ok (true, session) := by
  have compiled := reached.compiled
  unfold Compiled at compiled
  simp [recompile, compiled, bind, Except.bind, pure, Except.pure]

end Session

end XmlTemplate
