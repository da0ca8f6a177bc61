import Handoff.Url.Host

namespace Handoff

structure Url where
  scheme : List Char
  authority : Option (List Char)
  path : List Char
  query : Option (List Char)
  fragment : Option (List Char)
  deriving DecidableEq, Repr

namespace Url

/-- The special schemes and their usual port; `file` has none. -/
def specialSchemes : List (String × Option Nat) :=
  [("http", some 80), ("https", some 443), ("ws", some 80), ("wss", some 443), ("ftp", some 21),
    ("file", none)]

def isSpecial (scheme : List Char) : Bool :=
  specialSchemes.any (·.1.toList = scheme)

def usualPort (scheme : List Char) : Option Nat :=
  (specialSchemes.find? (·.1.toList = scheme)).bind (·.2)

def isEdge (c : Char) : Bool := c.toNat ≤ 0x20

def isBreak (c : Char) : Bool := c = '\t' || c = '\n' || c = '\r'

def clean (cs : List Char) : List Char :=
  (((cs.dropWhile isEdge).reverse.dropWhile isEdge).reverse).filter fun c => !isBreak c

def isSchemeChar (c : Char) : Bool := Text.isAsciiAlnum c || c = '+' || c = '-' || c = '.'

def readScheme (cs : List Char) : Option (List Char × List Char) := do
  let (scheme, rest) ← Text.cutChars ':' cs
  if scheme.head?.any Text.isAsciiLetter ∧ scheme.all isSchemeChar then
    some (scheme.map Text.lowerAscii, rest)
  else none

def isSlash (special : Bool) (c : Char) : Bool := c = '/' || (special && c = '\\')

def endsAuthority (special : Bool) (c : Char) : Bool := isSlash special c || c = '?' || c = '#'

def cutLastAt (cs : List Char) : Option (List Char × List Char) :=
  (Text.cutChars '@' cs.reverse).map fun (after, before) => (before.reverse, after.reverse)

def printUserinfo (cs : List Char) : List Char :=
  let enc := percentEncode inUserinfo
  let text := match Text.cutChars ':' cs with
    | none => enc cs
    | some (name, []) => enc name
    | some (name, word) => enc name ++ ':' :: enc word
  if text.isEmpty then [] else text ++ ['@']

/-- The host and what follows its colon: a colon inside brackets belongs to the host. -/
def cutPort : Bool → List Char → List Char × Option (List Char)
  | _, [] => ([], none)
  | inside, c :: cs =>
    if c = ':' ∧ !inside then ([], some cs)
    else
      let (host, port) := cutPort (if c = '[' then true else if c = ']' then false else inside) cs
      (c :: host, port)

def readPort (scheme port : List Char) : Except UrlError (List Char) :=
  if port.all Text.isAsciiDigit then
    let n := Text.foldDigits 0 port
    if 65535 < n then .error .invalidPort
    else if port.isEmpty ∨ some n = usualPort scheme then .ok []
    else .ok (':' :: Text.natChars n)
  else .error .invalidPort

def readAuthority (scheme : List Char) (cs : List Char) : Except UrlError (List Char) := do
  let special := isSpecial scheme
  let (userinfo, rest) := (cutLastAt cs).getD ([], cs)
  let (host, port) := cutPort false rest
  if host = [] ∧ (special ∨ port.isSome ∨ userinfo ≠ []) then .error .emptyHost
  else
    let host ← if special then readHost host else readPlainHost host
    let port ← readPort scheme (port.getD [])
    return printUserinfo userinfo ++ host ++ port

def isDot (segment : List Char) : Bool :=
  [".", "%2e"].any (·.toList = segment.map Text.lowerAscii)

def isDoubleDot (segment : List Char) : Bool :=
  ["..", ".%2e", "%2e.", "%2e%2e"].any (·.toList = segment.map Text.lowerAscii)

def walk : List (List Char) → List (List Char) → List (List Char)
  | done, [] => done.reverse
  | done, s :: rest =>
    if isDoubleDot s then walk (if rest.isEmpty then [] :: done.drop 1 else done.drop 1) rest
    else if isDot s then walk (if rest.isEmpty then [] :: done else done) rest
    else walk (percentEncode inPath s :: done) rest

def segments (special : Bool) (cs : List Char) : List (List Char) :=
  Text.splitChars '/' (cs.map fun c => if isSlash special c then '/' else c)

def printPath (segs : List (List Char)) : List Char := '/' :: Text.joinChars ['/'] (walk [] segs)

def readPath (special : Bool) (cs : List Char) : List Char :=
  match cs with
  | [] => if special then ['/'] else []
  | c :: rest => printPath (segments special (if isSlash special c then rest else c :: rest))

def cutTail (cs : List Char) : List Char × Option (List Char) × Option (List Char) :=
  let (cs, fragment) := match Text.cutChars '#' cs with
    | some (a, b) => (a, some b)
    | none => (cs, none)
  match Text.cutChars '?' cs with
  | some (a, b) => (a, some b, fragment)
  | none => (cs, none, fragment)

/-- The host of a file: none, or another machine than this one. -/
def readFileHost (cs : List Char) : Except UrlError (List Char) := do
  if cs = [] then return []
  else
    let host ← readHost cs
    return if host = "localhost".toList then [] else host

def readFile (cs : List Char) : Except UrlError (Option (List Char) × List Char) := do
  if 2 ≤ cs.length ∧ (cs.take 2).all (isSlash true) then
    let rest := cs.drop 2
    let host ← readFileHost (rest.takeWhile fun c => !endsAuthority true c)
    return (some host, readPath true (rest.dropWhile fun c => !endsAuthority true c))
  else return (some [], readPath true cs)

def readBody (scheme : List Char) (cs : List Char) :
    Except UrlError (Option (List Char) × List Char) := do
  let special := isSpecial scheme
  let withAuthority (cs : List Char) : Except UrlError (Option (List Char) × List Char) := do
    let authority ← readAuthority scheme (cs.takeWhile fun c => !endsAuthority special c)
    return (some authority, readPath special (cs.dropWhile fun c => !endsAuthority special c))
  if scheme = "file".toList then readFile cs
  else if special then withAuthority (cs.dropWhile (isSlash true))
  else match cs with
    | '/' :: '/' :: cs => withAuthority cs
    | '/' :: cs => return (none, printPath (segments false cs))
    | cs => return (none, percentEncode nowhere cs)

def parse (s : String) : Except UrlError Url :=
  match readScheme (clean s.toList) with
  | none => .error .relative
  | some (scheme, rest) => do
    let (body, query, fragment) := cutTail rest
    let (authority, path) ← readBody scheme body
    let escapes := if isSpecial scheme then inSpecialQuery else inQuery
    return ⟨scheme, authority, path, query.map (percentEncode escapes),
      fragment.map (percentEncode inFragment)⟩

def behind (sign : Char) : Option (List Char) → List Char
  | some cs => sign :: cs
  | none => []

def text (u : Url) : String :=
  String.ofList <| u.scheme ++ ':' :: ((u.authority.map fun a => '/' :: '/' :: a).getD [] ++
    u.path ++ behind '?' u.query ++ behind '#' u.fragment)

def addPairs (pairs : List (String × String)) (u : Url) : Url :=
  let more := (Form.print pairs).toList
  let old := u.query.getD []
  { u with query := some (if old.isEmpty then more else old ++ '&' :: more) }

end Url

end Handoff
