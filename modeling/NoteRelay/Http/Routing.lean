import NoteRelay.Text.Form
import NoteRelay.Rulebook
import NoteRelay.Credentials.Resolve
import NoteRelay.Status

/-!
# Routing

What a request is answered with before any session starts. There are three resources: a health
check, chat sessions and subscriptions to note events. The latter two switch to the WebSocket
protocol, a subscription only for a caller who shows a token. The query of a subscription is looked
at first, then the switch of protocols, and the caller last.

A request is as it comes off the connection: a target of path and query, and headers whose values
are bytes. Header names are compared without regard to case, and the blanks around a value do not
belong to it.
-/

namespace NoteRelay.Http

-- ---------------------------------------------------------------------------
-- Requests
-- ---------------------------------------------------------------------------

structure Request where
  method : String
  /-- The path and, behind a question mark, the query. -/
  target : String
  headers : List (String × ByteArray)

def isValueBlank (b : UInt8) : Bool :=
  b == 0x20 || b == 9

/-- What a header value is made of: anything but control bytes, tabs excepted. -/
def isValueByte (b : UInt8) : Bool :=
  b == 9 || (0x20 ≤ b && b != 0x7f)

def trimmedValue (value : ByteArray) : ByteArray :=
  let inner := ((value.toList.dropWhile isValueBlank).reverse.dropWhile isValueBlank).reverse
  ⟨inner.toArray⟩

/-- Text in lower case, as far as it is ASCII. -/
def lowered (bytes : ByteArray) : List UInt8 :=
  bytes.toList.map fun b => if 0x41 ≤ b && b ≤ 0x5a then b + 0x20 else b

def occursIn (word : List UInt8) : List UInt8 → Bool
  | [] => word.isEmpty
  | b :: rest => word.isPrefixOf (b :: rest) || occursIn word rest

namespace Request

def isReadable (r : Request) : Bool :=
  r.headers.all fun h => h.2.toList.all isValueByte

def resource (r : Request) : List Char :=
  (Text.cutAt '#' r.target.toList).1

def path (r : Request) : String :=
  String.ofList (Text.cutAt '?' r.resource).1

def query (r : Request) : List (String × String) :=
  Text.formFields ((Text.cutAt '?' r.resource).2.getD [])

def values (r : Request) (name : String) : List ByteArray :=
  (r.headers.filter fun h => h.1.toLower == name).map fun h => trimmedValue h.2

/-- Whether the first value of a header is a word, in any case. -/
def carries (r : Request) (name word : String) : Bool :=
  match r.values name with
  | value :: _ => lowered value == word.toUTF8.toList
  | [] => false

def mentions (r : Request) (name word : String) : Bool :=
  match r.values name with
  | value :: _ =>
    (String.fromUTF8? value).isSome && occursIn word.toUTF8.toList (lowered value)
  | [] => false

end Request

-- ---------------------------------------------------------------------------
-- Answers
-- ---------------------------------------------------------------------------

inductive Upgrade where
  | chat
  | notes (caller : Principal)
  deriving DecidableEq, Repr

inductive Answer where
  /-- A status of its own and no status of the relay in the body. -/
  | plain (status : Nat)
  | refused (body : Status)
  | switching (session : Upgrade)
  deriving DecidableEq, Repr

structure Gate where
  verifier : Credentials.Verifier
  rulebook : Rulebook

def upgradeFlaw? (r : Request) : Option Nat :=
  if r.method != "GET" then some 405
  else if !r.mentions "connection" "upgrade" then some 400
  else if !r.carries "upgrade" "websocket" then some 400
  else if (r.values "sec-websocket-key").isEmpty then some 400
  else if !r.carries "sec-websocket-version" "13" then some 400
  else none

def chatAnswer (r : Request) : Answer :=
  match upgradeFlaw? r with
  | some status => .plain status
  | none => .switching .chat

/-- The tokens that a query gives, of which there may be one at most. -/
def queryTokens (r : Request) : List String :=
  (r.query.filter fun field => field.1 == "token").map (·.2)

def notesAnswer (g : Gate) (r : Request) : Answer :=
  if 1 < (queryTokens r).length then .plain 400
  else
    match upgradeFlaw? r with
    | some status => .plain status
    | none =>
      match Credentials.resolve g.verifier (r.values "authorization") (queryTokens r).head? with
      | .ok caller => .switching (.notes caller)
      | .error failure => .refused (g.rulebook.statusOf failure)

/-- Whether a method asks for a resource or for what would be said of it. -/
def isReading (method : String) : Bool :=
  method == "GET" || method == "HEAD"

def routed (g : Gate) (r : Request) : Answer :=
  match r.path with
  | "/health" => if isReading r.method then .plain 200 else .plain 405
  | "/api/v1/chat/dispatch" => if isReading r.method then chatAnswer r else .plain 405
  | "/api/v1/notes/events" => if isReading r.method then notesAnswer g r else .plain 405
  | _ => .plain 404

def answer (g : Gate) (r : Request) : Answer :=
  if r.isReadable then routed g r else .plain 400

def Answer.status : Answer → Nat
  | plain status => status
  | refused body => body.code.httpStatus
  | switching _ => 101

end NoteRelay.Http
