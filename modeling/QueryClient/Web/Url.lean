import QueryClient.Web.Host

/-!
# Addresses

Reads the address of a page on a web server, mends what can be mended, and writes it again. The
protocol is known beforehand; tabs and line breaks count for nothing, backslashes are slashes, any
number of slashes may precede the host, and segments of dots are resolved.

* `Url.parse`: reads what follows the protocol.
* `Url.addPair`: adds a name and a value to the query.
* `Url.text`: the written form.
-/

namespace QueryClient.Web

/-- An address, its parts in their written forms. -/
structure Url where
  /-- Spoken to in private. -/
  secure : Bool
  user : List Char
  password : List Char
  host : List Char
  /-- None for the usual port of the protocol. -/
  port : Option Nat
  segments : List (List Char)
  query : Option (List Char)
  fragment : Option (List Char)

namespace Url

/-- A slash in either direction. -/
def isSlash (c : Char) : Bool := c == '/' || c == '\\'

/-- The end of the part that names the host. -/
def endsAuthority (c : Char) : Bool := isSlash c || c == '?' || c == '#'

/-- Counts for nothing in an address. -/
def isLayout (c : Char) : Bool := c == '\t' || c == '\n' || c == '\r'

/-- The usual port. -/
def usualPort (secure : Bool) : Nat := if secure then 443 else 80

/-- What stands before the last at sign, if there is one, and what stands after it. -/
def splitUser (authority : List Char) : Option (List Char) × List Char :=
  let host := (authority.reverse.takeWhile (· ≠ '@')).reverse
  if host.length = authority.length then (none, host)
  else (some (authority.take (authority.length - host.length - 1)), host)

/-- The host ends at the first colon outside of brackets. -/
def splitPort (inside : Bool) : List Char → List Char × Option (List Char)
  | [] => ([], none)
  | c :: rest =>
    if c = ':' ∧ ¬inside then ([], some rest)
    else
      let (host, port) := splitPort (c = '[' ∨ (inside ∧ c ≠ ']')) rest
      (c :: host, port)

/-- Reads a port. An empty one and the usual one are left out. -/
def parsePort (secure : Bool) (cs : List Char) : Except UrlError (Option Nat) :=
  match numberIn? 10 0 cs with
  | none => .error .invalidPort
  | some n =>
    if 65535 < n then .error .invalidPort
    else if cs.isEmpty || n == usualPort secure then .ok none
    else .ok (some n)

/-- One dot, plain or encoded. -/
def isDot (segment : List Char) : Bool :=
  ["." , "%2e", "%2E"].any fun s => s.toList == segment

/-- Two dots, plain or encoded. -/
def isDoubleDot (segment : List Char) : Bool :=
  ["..", "%2e%2e", "%2e%2E", "%2E%2e", "%2E%2E", "%2e.", "%2E.", ".%2e", ".%2E"].any
    fun s => s.toList == segment

/-- A letter and a colon or a bar, which names a drive and is never left. -/
def isDrive : List Char → Bool
  | [c, d] => c.isAlpha && (d == ':' || d == '|')
  | _ => false

/-- The directory above; `path` has its segments in reverse order. -/
def parent : List (List Char) → List (List Char)
  | [] => []
  | segment :: rest => if isDrive segment then segment :: rest else rest

/-- Resolves segments of dots; `path` has the segments before them in reverse order. -/
def resolve (path : List (List Char)) : List (List Char) → List (List Char)
  | [] => path.reverse
  | [segment] =>
    if isDoubleDot segment then ([] :: parent path).reverse
    else if isDot segment then ([] :: path).reverse
    else (segment :: path).reverse
  | segment :: rest =>
    if isDoubleDot segment then resolve (parent path) rest
    else if isDot segment then resolve path rest
    else resolve (segment :: path) rest

/-- The parts between slashes. -/
def splitSlashes : List Char → List (List Char)
  | [] => [[]]
  | c :: rest =>
    if isSlash c then [] :: splitSlashes rest
    else
      match splitSlashes rest with
      | [] => [[c]]
      | segment :: others => (c :: segment) :: others

/-- The segments of a path that may be empty. -/
def parsePath (cs : List Char) : List (List Char) :=
  let cs := match cs with
    | c :: rest => if isSlash c then rest else c :: rest
    | [] => []
  resolve [] ((splitSlashes cs).map (percentEncode escapedInPath))

/-- Path, query and fragment of an address. -/
def splitTail (cs : List Char) : List Char × Option (List Char) × Option (List Char) :=
  let path := cs.takeWhile fun c => c ≠ '?' ∧ c ≠ '#'
  match cs.drop path.length with
  | '?' :: rest =>
    let query := rest.takeWhile (· ≠ '#')
    (path, some query, match rest.drop query.length with
      | _ :: fragment => some fragment
      | [] => none)
  | _ :: fragment => (path, none, some fragment)
  | [] => (path, none, none)

/-- User and password of an authority, in their written forms. -/
def parseUser (cs : List Char) : List Char × List Char :=
  let user := cs.takeWhile (· ≠ ':')
  (percentEncode escapedInUser user, percentEncode escapedInUser (cs.drop (user.length + 1)))

/-- **Reads an address** from what follows the protocol and its colon. -/
def parse (secure : Bool) (text : List Char) : Except UrlError Url := do
  let cs := (text.filter fun c => !isLayout c).dropWhile isSlash
  let authority := cs.takeWhile fun c => !endsAuthority c
  let (userinfo, hostAndPort) := splitUser authority
  let (host, portText) := splitPort false hostAndPort
  if host.isEmpty then throw .emptyHost
  let host ← parseHost host
  let port ← match portText with
    | none => pure none
    | some digits => parsePort secure digits
  let (user, password) := parseUser (userinfo.getD [])
  let (path, query, fragment) := splitTail (cs.drop authority.length)
  return {
    secure, user, password, host, port
    segments := parsePath path
    query := query.map (percentEncode escapedInQuery)
    fragment := fragment.map (percentEncode escapedInFragment) }

/-- Adds a name and a value to the query. -/
def addPair (u : Url) (name value : String) : Url :=
  let pair := formEncode name.toList ++ '=' :: formEncode value.toList
  { u with query := some (match u.query with
    | none | some [] => pair
    | some query => query ++ '&' :: pair) }

/-- The written form of user and password. -/
def userText (u : Url) : List Char :=
  if u.user.isEmpty && u.password.isEmpty then []
  else
    u.user ++ (if u.password.isEmpty then [] else ':' :: u.password) ++ ['@']

/-- User and password can be read as text. -/
def userReadable (u : Url) : Bool :=
  let readable (cs : List Char) := (Utf8.decode? (percentDecode (Utf8.encode cs))).isSome
  readable u.user && (!u.user.isEmpty || readable u.password)

/-- The address without user and password, which are sent in another way. -/
def anonymous (u : Url) : Url := if u.userReadable then { u with user := [], password := [] } else u

/-- **The written form of an address.** -/
def text (u : Url) : String :=
  let scheme := if u.secure then "https://" else "http://"
  let port := match u.port with
    | none => []
    | some n => ':' :: decimal n
  let path := u.segments.flatMap fun s => '/' :: s
  let query := match u.query with
    | none => []
    | some cs => '?' :: cs
  let fragment := match u.fragment with
    | none => []
    | some cs => '#' :: cs
  scheme ++ String.ofList (u.userText ++ u.host ++ port ++ path ++ query ++ fragment)

/-- A host that can be sent for. -/
def isSendable (u : Url) : Bool :=
  u.host.all (fun c => !"\"`\x7b\x7d".toList.contains c) && u.text.length < 65535

end Url

end QueryClient.Web
