import ToolNodes.Url.Host

/-!
# URLs

A URL is kept in parts, and its path as a list of segments: `/a/b` has the segments `a` and `b`,
`/a/` has `a` and an empty one, and `/` has a single empty one. A URL without a slash behind its
scheme has no such path and takes no segments. `Url.pushSegment` adds a segment the way a path is read:
tabs and line breaks are dropped, a segment that then is a dot leaves an empty segment, two dots take the
segment before them away; the characters that would end a segment are encoded.
-/

namespace ToolNodes

/-- Who is asked: user information, host and port. -/
structure Url.Authority where
  userInfo : List Char
  host : List Char
  port : Option Nat
deriving DecidableEq, Repr

inductive Url.Path where
  /-- A path that does not start with a slash. -/
  | rootless (text : List Char)
  /-- The segments, each behind a slash. -/
  | segments (list : List (List Char))
deriving DecidableEq, Repr

/-- A URL by its parts, each in encoded form. -/
structure Url where
  scheme : List Char
  authority : Option Url.Authority
  path : Url.Path
  query : Option (List Char)
  fragment : Option (List Char)
deriving DecidableEq, Repr

namespace Url

def defaultPort? (scheme : List Char) : Option Nat :=
  if scheme = ['h', 't', 't', 'p'] || scheme = ['w', 's'] then some 80
  else if scheme = ['h', 't', 't', 'p', 's'] || scheme = ['w', 's', 's'] then some 443
  else if scheme = ['f', 't', 'p'] then some 21
  else none

def fileScheme : List Char := ['f', 'i', 'l', 'e']

/-- Whether the scheme is one of those whose URLs always have a host and a path. -/
def isSpecial (scheme : List Char) : Bool :=
  (defaultPort? scheme).isSome || scheme = fileScheme

/-! ## Text -/

def Authority.text (a : Authority) : List Char :=
  (if a.userInfo.isEmpty then [] else a.userInfo ++ ['@']) ++ a.host ++
    match a.port with
    | some port => ':' :: Nat.toDigits 10 port
    | none => []

def Path.text : Path → List Char
  | rootless text => text
  | segments list => list.flatMap ('/' :: ·)

/-- Whether a path without an authority before it would be read as one. -/
def Path.looksLikeAuthority : Path → Bool
  | segments ([] :: _ :: _) => true
  | _ => false

def text (u : Url) : List Char :=
  u.scheme ++ ':' ::
    ((match u.authority with
      | some a => '/' :: '/' :: a.text
      | none => if u.path.looksLikeAuthority then ['/', '.'] else []) ++
    u.path.text ++
    (match u.query with
      | some q => '?' :: q
      | none => []) ++
    match u.fragment with
    | some f => '#' :: f
    | none => [])

def toString (u : Url) : String := String.ofList u.text

/-- The URL without its fragment. -/
def withoutFragment (u : Url) : Url := { u with fragment := none }

/-- The host, unless it is missing or empty. -/
def host? (u : Url) : Option (List Char) :=
  (u.authority.map Authority.host).filter fun host => !host.isEmpty

/-- The port, also one that goes without saying. -/
def port? (u : Url) : Option Nat := (u.authority.bind Authority.port).or (defaultPort? u.scheme)

/-- Whether two URLs lead to one host and port. -/
def sameServer (u v : Url) : Bool := u.host? = v.host? && u.port? = v.port?

/-! ## User information -/

/-- A user's name, and a password. -/
structure Credentials where
  user : String
  password : Option String
deriving DecidableEq, Repr

/-- The credentials of an authority, decoded: none if the name cannot be, or if there is neither a name
nor a password that can. -/
def Authority.credentials? (a : Authority) : Option Credentials :=
  let decoded := fun s => Text.Utf8.decode? (percentDecode s)
  let password := match a.userInfo.dropWhile (· ≠ ':') with
    | _ :: s => decoded s
    | [] => none
  (decoded (a.userInfo.takeWhile (· ≠ ':'))).bind fun user =>
    if user = "" && password.isNone then none else some ⟨user, password⟩

/-- The authority without its credentials. -/
def Authority.bare (a : Authority) : Authority :=
  if a.credentials?.isSome then { a with userInfo := [] } else a

/-- The URL without its user information. -/
def withoutUserInfo (u : Url) : Url :=
  { u with authority := u.authority.map fun a => { a with userInfo := [] } }

def credentials? (u : Url) : Option Credentials := u.authority.bind Authority.credentials?

/-- The URL without its credentials. -/
def bare (u : Url) : Url := { u with authority := u.authority.map Authority.bare }

/-! ## Segments -/

def isDropped (c : Char) : Bool := c = '\t' || c = '\n' || c = '\r'

/-- Drops one empty segment at the end of a path with more than one. -/
def popEmpty : List (List Char) → List (List Char)
  | [] => []
  | [segment] => [segment]
  | path => if path.getLast? = some [] then path.dropLast else path

/-- Adds a segment to a path. A single dot or two dots add nothing. -/
def pushSegment (special : Bool) (path : List (List Char)) (segment : List Char) :
    List (List Char) :=
  if segment = ['.'] || segment = ['.', '.'] then path
  else
    let front := if path = [[]] then [] else path
    let kept := segment.filter fun c => !isDropped c
    if kept = ['.', '.'] then front.dropLast ++ [[]]
    else if kept = ['.'] then front ++ [[]]
    else front ++ [percentEncode (EncodeSet.segment special) kept]

/-- The URL behind one empty segment with segments added; none when it takes no segments. -/
def extend? (u : Url) (added : List (List Char)) : Option Url :=
  match u.path with
  | .rootless _ => none
  | .segments path =>
    some { u with
      path := .segments (added.foldl (pushSegment (isSpecial u.scheme)) (popEmpty path)) }

end Url

end ToolNodes
