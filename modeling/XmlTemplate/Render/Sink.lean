import XmlTemplate.Render.Error

/-!
# Sinks

A sink holds the text that was written into it. It may have room for a limited number of further
characters: a write that needs more fills it up and fails.
-/

namespace XmlTemplate.Render

/-- The text written so far and the number of characters that may follow, if that is limited. -/
structure Sink where
  text : String
  room : Option Nat
  deriving DecidableEq, Repr

/-- An action that writes into a sink. What it wrote stays there when it fails. -/
abbrev Action := ExceptT RenderError (StateM Sink)

/-- A sink without a limit. -/
def Sink.unbounded (text : String) : Sink := ⟨text, none⟩

/-- A piece as far as a sink takes it, and whether it takes all of it. -/
def Sink.add (sink : Sink) (piece : String) : Sink × Bool :=
  match sink.room with
  | none => (⟨sink.text ++ piece, none⟩, true)
  | some room =>
    if piece.length ≤ room then (⟨sink.text ++ piece, some (room - piece.length)⟩, true)
    else (⟨sink.text ++ String.ofList (piece.toList.take room), some 0⟩, false)

/-- A piece is written, or as much of it as the sink takes. -/
def write (piece : String) : Action Unit := fun sink =>
  match sink.add piece with
  | (sink, true) => (.ok (), sink)
  | (sink, false) => (.error .write, sink)

/-- The result of an action and the sink after it. -/
def Action.start {α : Type} (action : Action α) (sink : Sink) : Except RenderError α × Sink :=
  action.run.run sink

end XmlTemplate.Render
