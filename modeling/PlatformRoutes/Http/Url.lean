import PlatformRoutes.Number.Numeral
import PlatformRoutes.Text.Base64
import PlatformRoutes.Text.Percent

namespace PlatformRoutes.Http

/-- An absolute address in its parts. -/
structure Url where
  scheme : String
  userInfo : String
  host : String
  port : Option Int
  path : String
  query : Option String
  fragment : Option String
  deriving DecidableEq

namespace Url

/-- The visible characters of ASCII without some of them. -/
def visibleBut (excluded : String) (c : Char) : Bool :=
  33 ≤ c.toNat && c.toNat ≤ 126 && !excluded.toList.contains c

def inFragment : Char → Bool := visibleBut "\"<>\x60"
def inQuery : Char → Bool := visibleBut "\"#<>"
def inPath : Char → Bool := visibleBut "\"#<>?\x60\x7b\x7d"
def inUserInfo : Char → Bool := visibleBut "\"#<>?\x60\x7b\x7d/;=@[\\]^|"

def inHost (c : Char) : Bool :=
  Text.isUnreserved c || "!$&'()*+,;=\"\x60\x7b\x7d%|\\".toList.contains c

/-- Control characters have no place in an address. -/
def hasControl (s : String) : Bool :=
  s.toList.any fun c => c.toNat < 32 || c.toNat == 127

/-- The text before the first of the given character, and the text after it if it occurs. -/
def cutAt (c : Char) (cs : List Char) : List Char × Option (List Char) :=
  match cs.dropWhile (· != c) with
  | _ :: rest => (cs.takeWhile (· != c), some rest)
  | [] => (cs, none)

/-- The path, the query and the fragment of what follows the host. -/
def splitTail (cs : List Char) : String × Option String × Option String :=
  let (front, fragment) := cutAt '#' cs
  let (path, query) := cutAt '?' front
  (.ofList path, query.map .ofList, fragment.map .ofList)

def splitOn (c : Char) : List Char → List (List Char)
  | [] => [[]]
  | d :: rest =>
    if d == c then [] :: splitOn c rest
    else
      match splitOn c rest with
      | [] => [[d]]
      | first :: others => (d :: first) :: others

/-- The segments without the single dots; a double dot takes the segment before it away, but never
the start of the path. -/
def dropDots (kept : List (List Char)) : List (List Char) → List (List Char)
  | [] => kept.reverse
  | ['.'] :: rest => dropDots kept rest
  | ['.', '.'] :: rest => dropDots (if kept == [[]] then kept else kept.drop 1) rest
  | segment :: rest => dropDots (segment :: kept) rest

def normalPath (path : String) : String :=
  .ofList ([('/' : Char)].intercalate (dropDots [] (splitOn '/' path.toList)))

def defaultPort (scheme : String) : Int := if scheme == "https" then 443 else 80

/-- A port is left out if it is empty or the default one of its scheme. -/
def port? (scheme : String) : Option (List Char) → Option (Option Int)
  | none => some none
  | some [] => some none
  | some cs =>
    match Number.writtenInt? (.ofList cs) with
    | none => none
    | some n => some (if n == defaultPort scheme then none else some n)

/-- What stands before the last at sign. -/
def splitUserInfo (cs : List Char) : List Char × List Char :=
  match cutAt '@' cs.reverse with
  | (_, none) => ([], cs)
  | (host, some info) => (info.reverse, host.reverse)

/-- The host, and the port after its colon. An address in brackets holds colons of its own. -/
def splitPort (cs : List Char) : List Char × Option (List Char) :=
  match cs with
  | '[' :: _ =>
    match cutAt ']' cs.reverse with
    | (after, some inner) =>
      let port := after.reverse
      ((']' :: inner).reverse, if port.head? == some ':' then some (port.drop 1) else
        if port.isEmpty then none else some port)
    | (_, none) => cutAt ':' cs
  | cs => cutAt ':' cs

/-- A part of a dotted number: at most 255, without needless zeros. -/
def isByte (cs : List Char) : Bool :=
  cs.length ≤ 3 && !(cs.length > 1 && cs.head? == some '0') &&
    ((cs.mapM Number.asciiDigit?).map Number.decimalValue).any (· ≤ 255)

/-- A host of four numbers is a dotted number, whose parts have to be bytes. -/
def isHost (cs : List Char) : Bool :=
  let parts := splitOn '.' cs
  if parts.length == 4 && parts.all fun p => !p.isEmpty && p.all Text.isAsciiDigit then
    parts.all isByte
  else true

/-- Reads an address after its scheme. -/
def ofRest? (scheme : String) (cs : List Char) : Option Url := do
  let isEnd (c : Char) := c == '/' || c == '?' || c == '#'
  let authority := cs.takeWhile fun c => !isEnd c
  let (path, query, fragment) := splitTail (cs.dropWhile fun c => !isEnd c)
  let (userInfo, rest) := splitUserInfo authority
  let (host, port) := splitPort rest
  let port ← port? scheme port
  if !isHost host then none
  return {
    scheme
    userInfo := Text.percentEncode inUserInfo (.ofList userInfo)
    host :=
      if host.head? == some '[' then .ofList host
      else Text.percentEncode inHost (Text.lower (.ofList host))
    port
    path := Text.percentEncode inPath (normalPath path)
    query := query.map (Text.percentEncode inQuery)
    fragment := fragment.map (Text.percentEncode inFragment) }

def after? (mark : String) (s : String) : Option (List Char) :=
  if mark.toList.isPrefixOf s.toList then some (s.toList.drop mark.length) else none

/-- Reads an address of one of the two schemes. -/
def read? (s : String) : Option Url :=
  if hasControl s then none
  else
    match after? "https://" s with
    | some rest => ofRest? "https" rest
    | none => (after? "http://" s).bind (ofRest? "http")

def authority (u : Url) : String :=
  (if u.userInfo.isEmpty then "" else u.userInfo ++ "@") ++ u.host ++
    (match u.port with
      | some n => ":" ++ toString n
      | none => "")

def queryText (mark : String) : Option String → String
  | some s => mark ++ s
  | none => ""

def text (u : Url) : String :=
  u.scheme ++ "://" ++ u.authority ++ u.path ++ queryText "?" u.query ++ queryText "#" u.fragment

/-- The path and the query as a request line has them; an empty path stands for the root. -/
def target (u : Url) : String :=
  (if u.path.isEmpty then "/" else u.path) ++ queryText "?" u.query

/-- The address with another path and query. -/
def withTarget (u : Url) (target : String) : Url :=
  let (path, query) := cutAt '?' target.toList
  { u with
    path := Text.percentEncode inPath (normalPath (.ofList path))
    query := query.map fun q => Text.percentEncode inQuery (.ofList q) }

/-- The address to which paths are appended: it ends in a slash. -/
def asBase (u : Url) : Url :=
  if u.target.toList.getLast? == some '/' then u else u.withTarget (u.target ++ "/")

/-- Appends a path that starts with a slash and may bring a query of its own; its fragment is
dropped. Given parameters take the place of any query. -/
def append? (base : Url) (path : String) (params : Option (List (String × String))) :
    Option Url :=
  if hasControl path then none
  else
    let (path, query, _) := splitTail path.toList
    let relative := Text.percentEncode inPath path ++
      queryText "?" (query.map (Text.percentEncode inQuery))
    let joined := base.withTarget (base.target ++ .ofList (relative.toList.dropWhile (· == '/')))
    some (match params with
      | some pairs => { joined with query := some (Text.formText pairs) }
      | none => joined)

/-- The credentials in front of the host, as the header that carries them. -/
def basicCredentials (u : Url) : Option String :=
  let (name, secret) := cutAt ':' u.userInfo.toList
  let secret := secret.getD []
  if name.isEmpty && secret.isEmpty then none
  else
    some ("Basic " ++ .ofList (Text.base64
      (Text.percentOctets name ++ Text.octets ':' ++ Text.percentOctets secret)))

end Url

end PlatformRoutes.Http
