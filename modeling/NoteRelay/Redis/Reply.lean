import NoteRelay.Failure
import NoteRelay.Text.Numeral

/-!
# Replies of a Redis server

The replies of the wire protocol, what a caller may take them for, and what can go wrong. A caller
that expects nothing takes any reply that is no error; a caller that expects a text also takes a
number for its digits. To the relay every fault is an unavailable queue, but for a stored text that
cannot be read.
-/

namespace NoteRelay.Redis

-- ---------------------------------------------------------------------------
-- Faults
-- ---------------------------------------------------------------------------

inductive Fault where
  | connection (text : String)
  | command (text : String)
  | configuration (text : String)
  | serialization (text : String)
  deriving DecidableEq, Repr

/-- The kinds of a client's own errors, as far as the relay tells them apart. -/
inductive ClientErrorKind where
  | invalidConfiguration
  | inputOutput
  | other
  deriving DecidableEq, Repr

namespace Fault

def ofClientError (kind : ClientErrorKind) (text : String) : Fault :=
  match kind with
  | .invalidConfiguration => configuration text
  | .inputOutput => connection text
  | .other => command text

def heading : Fault → String
  | connection _ => "Redis 连接错误"
  | command _ => "Redis 命令错误"
  | configuration _ => "配置错误"
  | serialization _ => "序列化错误"

def text : Fault → String
  | connection text => text
  | command text => text
  | configuration text => text
  | serialization text => text

def message (f : Fault) : String :=
  f.heading ++ ": " ++ f.text

/-- The fault of a queue, with words for what happened. -/
def queueFaultSaying (f : Fault) (words : String) : QueueFault :=
  match f with
  | serialization _ => .codec words
  | _ => .unavailable words

def toQueueFault (f : Fault) : QueueFault :=
  f.queueFaultSaying f.message

end Fault

-- ---------------------------------------------------------------------------
-- Replies
-- ---------------------------------------------------------------------------

inductive Reply where
  | simple (text : String)
  | error (text : String)
  | integer (value : Int)
  | nil
  | bulk (bytes : ByteArray)
  | array (items : List Reply)
  deriving Inhabited

namespace Reply

def takeLine? : List UInt8 → Option (List UInt8 × List UInt8)
  | [] => none
  | 13 :: 10 :: rest => some ([], rest)
  | b :: rest => (takeLine? rest).map fun (line, rest) => (b :: line, rest)

def lineText (line : List UInt8) : String :=
  String.fromUTF8? ⟨line.toArray⟩ |>.getD ""

def wholeOfText? (s : String) : Option Int :=
  let (sign, ds) : Int × List Char := match s.toList with
    | '-' :: ds => (-1, ds)
    | '+' :: ds => (1, ds)
    | ds => (1, ds)
  if ds.isEmpty || !ds.all Numeral.isDecimal then none
  else some (sign * Numeral.decimalValue ds)

mutual

def read? : Nat → List UInt8 → Option (Reply × List UInt8)
  | 0, _ => none
  | _, [] => none
  | fuel + 1, mark :: rest => do
    let (line, rest) ← takeLine? rest
    let text := lineText line
    match Char.ofNat mark.toNat with
    | '+' => return (simple text, rest)
    | '-' => return (error text, rest)
    | ':' => return (integer (← wholeOfText? text), rest)
    | '_' => return (nil, rest)
    | '$' =>
      let size ← wholeOfText? text
      if size < 0 then return (nil, rest)
      let bytes := rest.take size.toNat
      if bytes.length < size.toNat then none
      return (bulk ⟨bytes.toArray⟩, rest.drop (size.toNat + 2))
    | '*' =>
      let size ← wholeOfText? text
      if size < 0 then return (nil, rest)
      let (items, rest) ← readItems? fuel size.toNat rest
      return (array items, rest)
    | _ => none

def readItems? : Nat → Nat → List UInt8 → Option (List Reply × List UInt8)
  | _, 0, rest => some ([], rest)
  | 0, _, _ => none
  | fuel + 1, size + 1, rest => do
    let (item, rest) ← read? fuel rest
    let (items, rest) ← readItems? fuel size rest
    return (item :: items, rest)

end

/-- The first reply that bytes spell. Each reply takes at least one byte, so twice their number
bounds the calls. -/
def ofBytes? (bytes : ByteArray) : Option Reply :=
  (read? (2 * bytes.size + 2) bytes.toList).map (·.1)

/-- The text of the first error in a reply, however deep. -/
def errorText? : Reply → Option String
  | error text => some text
  | array items => errorIn? items
  | _ => none
where
  errorIn? : List Reply → Option String
    | [] => none
    | r :: rest => r.errorText?.or (errorIn? rest)

def sound (r : Reply) : Except Fault Reply :=
  match r.errorText? with
  | some text => .error (.command text)
  | none => .ok r

def mismatch (expected : String) : Fault :=
  .command ("unexpected reply: " ++ expected ++ " expected")

def asText : Reply → Except Fault String
  | simple text => .ok text
  | integer value => .ok (Numeral.ofInt value)
  | bulk bytes =>
    match String.fromUTF8? bytes with
    | some text => .ok text
    | none => .error (mismatch "text")
  | _ => .error (mismatch "text")

def asText? : Reply → Except Fault (Option String)
  | nil => .ok none
  | r => r.asText.map some

/-- Texts. A single one stands for itself, and none at all for no texts. -/
def asTexts : Reply → Except Fault (List String)
  | array items => items.mapM asText
  | nil => .ok []
  | bulk bytes => (asText (bulk bytes)).map fun text => [text]
  | _ => .error (mismatch "texts")

/-- A count of 64 bits. A negative number is taken for its bits. -/
def asCount (r : Reply) : Except Fault Nat :=
  match r with
  | integer value => .ok (value % UInt64.size).toNat
  | simple _ => ofDigits r
  | bulk _ => ofDigits r
  | _ => .error (mismatch "a count")
where
  ofDigits (r : Reply) : Except Fault Nat := do
    let text ← r.asText
    match wholeOfText? text with
    | some value =>
      if text.startsWith "-" || value ≥ UInt64.size then .error (mismatch "a count") else .ok value.toNat
    | none => .error (mismatch "a count")

end Reply

end NoteRelay.Redis
