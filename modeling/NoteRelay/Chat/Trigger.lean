import NoteRelay.Chat.Frame
import NoteRelay.Rulebook

/-!
# How messages are answered

A message is answered by its processed form, but for a text that a client sends to see a business
failure: it is answered by one instead.
-/

namespace NoteRelay.Chat

structure Trigger where
  text : Option String
  deriving DecidableEq, Repr

namespace Trigger

def disabled : Trigger :=
  ⟨none⟩

/-- The empty text is never processed, and as a trigger it stands for none. -/
def onText (text : String) : Trigger :=
  if text.isEmpty then disabled else ⟨some text⟩

def standard : Trigger :=
  onText "error"

def ofSetting : Option String → Trigger
  | some text => onText text
  | none => disabled

def fires (t : Trigger) (text : String) : Bool :=
  t.text == some text

def reason : String :=
  "some business issues"

end Trigger

/-- What all sessions are run by. -/
structure Policy where
  tick : Nat
  /-- How long a session stays when nothing is delivered. -/
  idle : Nat
  trigger : Trigger
  rulebook : Rulebook

def Policy.render (p : Policy) (m : ChatMessage) : Response :=
  if p.trigger.fires m.text then
    .status (p.rulebook.statusOf (.business m.text Trigger.reason))
  else .message (.ofMessage m.processed)

end NoteRelay.Chat
