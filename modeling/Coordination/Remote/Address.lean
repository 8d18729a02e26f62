import Coordination.Bounds
import Coordination.Text.Integer

/-! # Addresses of a store

Where a store listens: a host with a port, or a socket in the file system, each with the number of a database. An
address is written as a URL. Connections with transport security are not offered.
-/
namespace Coordination.Remote

inductive Endpoint where
  | tcp (host : String) (port : Nat)
  | socket (path : List UInt8)
deriving DecidableEq, Repr

inductive Protocol where
  | resp2
  | resp3
deriving DecidableEq, Repr

structure Address where
  endpoint : Endpoint
  database : Int
  username : Option String
  password : Option String
  protocol : Protocol
deriving DecidableEq, Repr

namespace Address

def defaultPort : Nat := 6379

/-! ## The parts of a URL -/

/-- The text in front of the first character that meets a test, and the rest from there on. -/
def cut (stop : Char → Bool) (cs : List Char) : List Char × List Char :=
  (cs.takeWhile fun c => !stop c, cs.dropWhile fun c => !stop c)

def pieces (separator : Char) (cs : List Char) : List (List Char) :=
  match cs.foldr (fun c (acc : List Char × List (List Char)) =>
    if c = separator then ([], acc.1 :: acc.2) else (c :: acc.1, acc.2)) ([], []) with
  | (first, rest) => first :: rest

/-- Without control characters and blanks at its ends, and without line breaks and tabs anywhere. -/
def cleaned (url : String) : List Char :=
  let isEdge (c : Char) : Bool := c.toNat ≤ 0x20
  let trimmed := ((url.toList.dropWhile isEdge).reverse.dropWhile isEdge).reverse
  trimmed.filter fun c => c != '\t' && c != '\n' && c != '\r'

def scheme? (cs : List Char) : Option (String × List Char) :=
  match cs, cut (· == ':') cs with
  | first :: _, (name, ':' :: rest) =>
    if first.isAlpha && name.all fun c => c.isAlphanum || c == '+' || c == '-' || c == '.' then
      some (String.ofList (name.map Char.toLower), rest)
    else none
  | _, _ => none

structure Parts where
  /-- What stands between two slashes and the path, if there is such a part. -/
  authority : Option (List Char)
  path : List Char
  query : List Char

def Parts.of (cs : List Char) : Parts :=
  let (authority, cs) := match cs with
    | '/' :: '/' :: rest =>
      let (a, rest) := cut (fun c => c == '/' || c == '?' || c == '#') rest
      (some a, rest)
    | _ => (none, cs)
  let (path, cs) := cut (fun c => c == '?' || c == '#') cs
  match cs with
  | '?' :: rest => ⟨authority, path, (cut (· == '#') rest).1⟩
  | _ => ⟨authority, path, []⟩

def hexValue? (c : Char) : Option Nat :=
  if c.isDigit then some (c.toNat - '0'.toNat)
  else if 'a' ≤ c.toLower ∧ c.toLower ≤ 'f' then some (c.toLower.toNat - 'a'.toNat + 10)
  else none

def percentDecoded : List Char → List UInt8
  | '%' :: a :: b :: rest =>
    match hexValue? a, hexValue? b with
    | some x, some y => (x * 16 + y).toUInt8 :: percentDecoded rest
    | _, _ => '%'.toNat.toUInt8 :: percentDecoded (a :: b :: rest)
  | c :: rest => c.toString.toUTF8.toList ++ percentDecoded rest
  | [] => []

def percentText? (cs : List Char) : Option String := String.fromUTF8? ⟨(percentDecoded cs).toArray⟩

/-- The members of a query, of two with one name the later one. -/
def queryValue? (query : List Char) (name : String) : Option String :=
  let plain (cs : List Char) : String := (percentText? (cs.map fun c => if c = '+' then ' ' else c)).getD ""
  let members := (pieces '&' query).filter (!·.isEmpty) |>.map fun member =>
    let (key, value) := cut (· == '=') member
    (plain key, plain (value.drop 1))
  members.reverse.lookup name

/-! ## Paths -/

def undotted : List Char → List Char
  | '%' :: '2' :: e :: rest => if e = 'e' ∨ e = 'E' then '.' :: undotted rest else '%' :: '2' :: e :: undotted rest
  | c :: rest => c :: undotted rest
  | [] => []

/-- Whether a segment is the letter of a drive, in front of a backslash or alone. -/
def isDrive : List Char → Bool
  | letter :: mark :: rest =>
    letter.isAlpha && (mark == ':' || mark == '|') && (rest.isEmpty || rest.head? == some '\\')
  | _ => false

/-- The segments, last first, above the last one. Above the letter of a drive there is nothing. -/
def above : List (List Char) → List (List Char)
  | segment :: rest => if isDrive segment then segment :: rest else rest
  | [] => []

/-- The segments that are left when `.` stays in place and `..` goes up; `done` holds them last first. -/
def resolved (done : List (List Char)) : List (List Char) → List (List Char)
  | [] => done.reverse
  | segment :: rest =>
    let last (done : List (List Char)) := if rest.isEmpty then [] :: done else done
    if undotted segment = ['.'] then resolved (last done) rest
    else if undotted segment = ['.', '.'] then resolved (last (above done)) rest
    else resolved (segment :: done) rest

def bare (path : List Char) : String :=
  let isSlash (c : Char) : Bool := c == '/'
  let joined := List.intercalate ['/'] (resolved [] (pieces '/' path))
  String.ofList ((joined.dropWhile isSlash).reverse.dropWhile isSlash).reverse

def databaseNumber? (text : String) : Option Int := (Text.Integer.parse (Bounds.signed 64) text).toOption

/-! ## Hosts -/

def isHexGroup (cs : List Char) : Bool := !cs.isEmpty && cs.length ≤ 4 && cs.all fun c => (hexValue? c).isSome

def isOctet (cs : List Char) : Bool :=
  !cs.isEmpty && cs.length ≤ 3 && cs.all Char.isDigit && (cs.length == 1 || cs.head? != some '0')
    && (String.ofList cs).toNat?.any (· ≤ 255)

/-- The number of 16-bit groups in a part of an address; its last piece may be four octets. -/
def groupCount? (cs : List Char) : Option Nat :=
  if cs.isEmpty then some 0
  else
    let groups := pieces ':' cs
    let last := groups.getLast?.getD []
    let octets := pieces '.' last
    if groups.all isHexGroup then some groups.length
    else if groups.dropLast.all isHexGroup && octets.length == 4 && octets.all isOctet then some (groups.length + 1)
    else none

def splitDoubleColon (before : List Char) : List Char → Option (List Char × List Char)
  | ':' :: ':' :: rest => some (before.reverse, rest)
  | c :: rest => splitDoubleColon (c :: before) rest
  | [] => none

/-- Whether the text between brackets is an address of eight groups; a double colon stands for one at least. -/
def isIpv6 (cs : List Char) : Bool :=
  match splitDoubleColon [] cs with
  | none => groupCount? cs == some 8
  | some (left, right) =>
    match groupCount? left, groupCount? right with
    | some n, some m => n + m ≤ 7 && !left.contains '.'
    | _, _ => false

def isHostCharacter (c : Char) : Bool := !"\x00\t\n\r #/:<>?@[\\]^|".toList.contains c

/-- The host and the port of a server, the port after a colon outside brackets, and what follows the port from
a backslash on. -/
def hostAndPort? (cs : List Char) : Option (String × Nat × List Char) := do
  let (bracketed, rest) := match cs with
    | '[' :: _ => cut (· == ']') cs
    | _ => ([], cs)
  let (plain, rest) := cut (· == ':') rest
  let host := bracketed ++ plain
  let isHost := match host with
    | '[' :: inside => inside.getLast? == some ']' && isIpv6 inside.dropLast
    | [] => false
    | host => host.all isHostCharacter
  let (digits, rest) := cut (!·.isDigit) (rest.drop 1)
  let port := if digits.isEmpty then defaultPort else digits.foldl (fun n c => n * 10 + (c.toNat - '0'.toNat)) 0
  if isHost && port ≤ 65535 && (rest.isEmpty || rest.head? == some '\\') then some (String.ofList host, port, rest)
  else none

/-- What stands in front of the last at sign, if there is one, and the rest. -/
def userAndServer (authority : List Char) : Option (List Char) × List Char :=
  let (server, before) := cut (· == '@') authority.reverse
  (if before.isEmpty then none else some (before.drop 1).reverse, server.reverse)

/-! ## Addresses -/

def protocol? (query : List Char) : Option Protocol :=
  match queryValue? query "protocol" with
  | none => some .resp2
  | some p =>
    if p = "2" ∨ p = "resp2" then some .resp2
    else if p = "3" ∨ p = "resp3" then some .resp3
    else none

/-- A path after what a backslash set apart from the authority, which opens a path of its own. -/
def pathAfter (apart path : List Char) : List Char := if apart.isEmpty then path else '/' :: (apart ++ path)

/-- The address of a server; its path is the number of a database. -/
def server? (parts : Parts) : Option Address := do
  let (user, server) := userAndServer (← parts.authority)
  let (host, port, apart) ← hostAndPort? server
  let (name, secret) := cut (· == ':') (user.getD [])
  let username ← if name.isEmpty then some none else some <$> percentText? name
  let password ← if secret.isEmpty then some none else some <$> percentText? (secret.drop 1)
  let path := bare (pathAfter apart parts.path)
  let database ← if path.isEmpty then some 0 else databaseNumber? path
  let protocol ← protocol? parts.query
  pure ⟨.tcp host port, database, username, password, protocol⟩

/-- The path of a socket. Its authority names no server or this one; with no server there is no user either,
though a colon and an at sign may stand. -/
def socketPath? (parts : Parts) : Option (List Char) :=
  match parts.authority with
  | none => some parts.path
  | some authority => do
    let (user, server) := userAndServer authority
    if server.isEmpty then
      if user.all (· == [':']) then some parts.path else none
    else
      let (host, _, apart) ← hostAndPort? server
      if host = "localhost" then some (pathAfter apart parts.path) else none

/-- The address of a socket; its database is named in the query. -/
def socket? (parts : Parts) : Option Address := do
  let path ← socketPath? parts
  if path.head? != some '/' then none
  let database ← match queryValue? parts.query "db" with
    | none => some 0
    | some text => databaseNumber? text
  let protocol ← protocol? parts.query
  let user := queryValue? parts.query "user"
  let secret := queryValue? parts.query "pass"
  pure ⟨.socket (percentDecoded path), database, user, secret, protocol⟩

def parse? (url : String) : Option Address := do
  let (scheme, rest) ← scheme? (cleaned url)
  if scheme = "redis" ∨ scheme = "valkey" then server? (Parts.of rest)
  else if scheme = "unix" ∨ scheme = "redis+unix" ∨ scheme = "valkey+unix" then socket? (Parts.of rest)
  else none

end Address

end Coordination.Remote
