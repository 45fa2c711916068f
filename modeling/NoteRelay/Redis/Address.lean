import NoteRelay.Redis.Server
import NoteRelay.Settings.Basic
import NoteRelay.Text.Form

/-!
# Addresses of Redis servers

Which addresses a relay can use: under the scheme `redis`, the user, secret, host, port and database
of a server on the network, and under `unix` the path of a socket on this machine, with the database
in the query. What a query says beyond that is passed over, but for the version of the protocol.
-/

namespace NoteRelay.Redis

structure Address where
  scheme : String
  /-- What stands between two slashes and the path, where there is such a part. -/
  authority : Option (List Char)
  path : List Char
  query : List (String × String)

namespace Address

def isSchemeChar (c : Char) : Bool :=
  c.isAlphanum || c == '+' || c == '-' || c == '.'

/-- Control characters and blanks at the ends, and line ends and tabs anywhere, do not count. -/
def cleaned (text : String) : List Char :=
  let isOuter (c : Char) : Bool := c.toNat ≤ 0x20
  let inner := ((text.toList.dropWhile isOuter).reverse.dropWhile isOuter).reverse
  inner.filter fun c => c != '\t' && c != '\n' && c != '\r'

def ofText? (text : String) : Option Address := do
  let (scheme, rest) := Text.cutAt ':' (cleaned text)
  let rest ← rest
  let first ← scheme.head?
  guard (first.isAlpha && scheme.all isSchemeChar)
  let (rest, _) := Text.cutAt '#' rest
  let (rest, query) := Text.cutAt '?' rest
  let (authority, path) := match rest with
    | '/' :: '/' :: rest => (some (rest.takeWhile (· != '/')), rest.dropWhile (· != '/'))
    | rest => (none, rest)
  return ⟨(String.ofList scheme).toLower, authority, path, Text.formFields (query.getD [])⟩

/-- The parts of an authority: the credentials before the last at sign, a host and a port. -/
structure Authority where
  credentials : Option (List Char)
  host : List Char
  port : List Char

def Authority.ofText (text : List Char) : Authority :=
  let behind := (text.reverse.takeWhile (· != '@')).reverse
  let credentials := if text.contains '@' then some (text.take (text.length - behind.length - 1))
    else none
  match behind with
  | '[' :: rest =>
    let (inside, after) := Text.cutAt ']' rest
    match after with
    | some after => ⟨credentials, '[' :: inside ++ [']'], after.drop 1⟩
    | none => ⟨credentials, [], []⟩
  | host =>
    let (host, port) := Text.cutAt ':' host
    ⟨credentials, host, port.getD []⟩

def isForbiddenInHost (c : Char) : Bool :=
  ['\x00', ' ', '#', '/', ':', '<', '>', '?', '@', '[', '\\', ']', '^', '|'].contains c

def isGroup (group : List Char) : Bool :=
  1 ≤ group.length && group.length ≤ 4 && group.all fun c => (Numeral.digitValue? c).isSome

/-- Eight groups of hexadecimal digits, or fewer around two colons in a row. -/
def isSixthVersion (inside : List Char) : Bool :=
  let groups := Text.splitAt ':' inside
  let gaps := groups.filter List.isEmpty
  let written := groups.filter fun g => !g.isEmpty
  let doubled := (inside.zip (inside.drop 1)).filter fun p => p.1 == ':' && p.2 == ':'
  written.all isGroup &&
    (if doubled.isEmpty then gaps.isEmpty && written.length == 8
     else doubled.length == 1 && written.length ≤ 7 &&
      (gaps.length == 1 || inside.take 2 == [':', ':'] || inside.reverse.take 2 == [':', ':']))

def Authority.hasHost (a : Authority) : Bool :=
  match a.host with
  | [] => false
  | '[' :: rest => isSixthVersion (rest.takeWhile (· != ']'))
  | host => !host.any isForbiddenInHost

def Authority.hasPort (a : Authority) : Bool :=
  a.port.all Numeral.isDecimal && Numeral.decimalValue a.port ≤ 65535

def Authority.hasCredentials (a : Authority) : Bool :=
  match a.credentials with
  | none => true
  | some text =>
    let (name, secret) := Text.cutAt ':' text
    let isText (part : List Char) : Bool :=
      (String.fromUTF8? ⟨(Text.unescaped part).toArray⟩).isSome
    isText name && isText (secret.getD [])

/-- The segments of a path without those that stay in place or lead back. -/
def resolved (segments : List String) : List String :=
  (segments.foldl step []).reverse
where
  step (done : List String) (segment : String) : List String :=
    let plain := segment.toLower.replace "%2e" "."
    if plain == "." then done
    else if plain == ".." then done.drop 1
    else segment :: done

def isDatabase (text : String) : Bool :=
  match Reply.wholeOfText? text with
  | some n => Int64.minValue.toInt ≤ n && n ≤ Int64.maxValue.toInt
  | none => false

def namesDatabase (path : List Char) : Bool :=
  let segments := resolved ((Text.splitAt '/' (path.drop 1)).map String.ofList)
  let isSlash (c : Char) : Bool := c == '/'
  let joined := ("/".intercalate segments).toList
  let name := ((joined.dropWhile isSlash).reverse.dropWhile isSlash).reverse
  name.isEmpty || isDatabase (String.ofList name)

def lastOf (query : List (String × String)) (name : String) : Option String :=
  query.reverse.lookup name

def namesProtocol (query : List (String × String)) : Bool :=
  match lastOf query "protocol" with
  | none => true
  | some version => ["2", "resp2", "3", "resp3"].contains version

def isUsable (a : Address) : Bool :=
  if ["redis", "valkey"].contains a.scheme then
    match a.authority.map Authority.ofText with
    | some authority =>
      authority.hasHost && authority.hasPort && authority.hasCredentials && namesDatabase a.path &&
        namesProtocol a.query
    | none => false
  else if ["unix", "redis+unix", "valkey+unix"].contains a.scheme then
    (match a.authority with
      | none => true
      | some host => host.isEmpty || host == ['l', 'o', 'c', 'a', 'l', 'h', 'o', 's', 't']) &&
    a.path.head? == some '/' && (lastOf a.query "db").all isDatabase && namesProtocol a.query
  else false

end Address

def usableAddress (text : String) : Except Fault Address :=
  match Address.ofText? text with
  | some address =>
    if address.isUsable then .ok address else .error (.configuration "unusable server address")
  | none => .error (.configuration "not a server address")

/-- The first command on a new connection, which has to be answered with a text. -/
def greeting : Exchange Unit :=
  ⟨.ping, fun reply => reply.asText.map fun _ => ()⟩

/-- What it takes to open the queues of a relay: nothing in memory, or a greeting to a server. -/
def opening (s : StorageSettings) : Except Fault (Option (Exchange Unit)) :=
  match s.backend with
  | .memory => .ok none
  | .redis => (usableAddress s.redisUrl).map fun _ => some greeting

end NoteRelay.Redis
