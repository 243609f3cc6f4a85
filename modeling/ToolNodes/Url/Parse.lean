import ToolNodes.Url.Basic

/-!
# Reading URLs

A text is read by the WHATWG rules without a base URL: characters up to the space are dropped at both
ends, and tabs and line breaks everywhere. Behind a special scheme any number of slashes, of either
kind, leads to the authority; behind any other scheme two slashes do. Dot segments, also in encoded
form, are resolved, and the parts are percent-encoded.
-/

namespace ToolNodes.Url

def isLetter (c : Char) : Bool := c.isAlpha

/-- A character that a scheme may hold behind its first. -/
def isSchemeChar (c : Char) : Bool :=
  c.isAlphanum || c = '+' || c = '-' || c = '.'

/-- The scheme in lower case and the text behind its colon. -/
def splitScheme? (s : List Char) : Option (List Char × List Char) :=
  match s.takeWhile isSchemeChar, s.dropWhile isSchemeChar with
  | c :: scheme, ':' :: rest =>
    if isLetter c then some ((c :: scheme).map Char.toLower, rest) else none
  | _, _ => none

def isSlash (special : Bool) (c : Char) : Bool := c = '/' || (special && c = '\\')

def endsAuthority (special : Bool) (c : Char) : Bool :=
  isSlash special c || c = '?' || c = '#'

/-! ## Paths -/

def isDot (segment : List Char) : Bool :=
  let s := segment.map Char.toLower
  s = ['.'] || s = ['%', '2', 'e']

def isDotDot (segment : List Char) : Bool :=
  let s := segment.map Char.toLower
  s = ['.', '.'] || s = ['.', '%', '2', 'e'] || s = ['%', '2', 'e', '.'] ||
    s = ['%', '2', 'e', '%', '2', 'e']

/-- A letter and a colon or bar, which in a file path name a drive. -/
def isDrive : List Char → Bool
  | [c, d] => isLetter c && (d = ':' || d = '|')
  | _ => false

/-- Takes the last segment away, but for a lone drive of a file path. -/
def shorten (file : Bool) (path : List (List Char)) : List (List Char) :=
  match path with
  | [segment] => if file && isDrive segment then path else []
  | path => path.dropLast

/-- Resolves the segments that are left behind those of `path`. -/
def resolve (file : Bool) (path : List (List Char)) : List (List Char) → List (List Char)
  | [] => path
  | segment :: rest =>
    let last := rest.isEmpty
    if isDotDot segment then
      let above := shorten file path
      resolve file (if last then above ++ [[]] else above) rest
    else if isDot segment then resolve file (if last then path ++ [[]] else path) rest
    else if file && path.isEmpty && isDrive segment then
      resolve file [[segment.headD ' ', ':']] rest
    else resolve file (path ++ [percentEncode EncodeSet.path segment]) rest

/-- The segments of a path text without its leading slash. -/
def pathSegments (special : Bool) (s : List Char) : List (List Char) :=
  resolve false [] (Text.splitOn (isSlash special) s)

/-- The segments of a file path: empty ones at its front are dropped. -/
def filePathSegments (s : List Char) : List (List Char) :=
  match (resolve true [] (Text.splitOn (isSlash true) s)).dropWhile List.isEmpty with
  | [] => [[]]
  | path => path

/-! ## Query and fragment -/

/-- The text before the query and the fragment. -/
def beforeQuery (s : List Char) : List Char := s.takeWhile fun c => c ≠ '?' && c ≠ '#'

def queryOf (special : Bool) (s : List Char) : Option (List Char) :=
  match s.dropWhile fun c => c ≠ '?' && c ≠ '#' with
  | '?' :: rest => some (percentEncode (EncodeSet.query special) (rest.takeWhile (· ≠ '#')))
  | _ => none

def fragmentOf (s : List Char) : Option (List Char) :=
  match s.dropWhile (· ≠ '#') with
  | '#' :: rest => some (percentEncode EncodeSet.fragment rest)
  | _ => none

/-! ## Authorities -/

/-- The number of a port text, none for an empty one. -/
def port (s : List Char) : Except ParseError (Option Nat) :=
  if s.isEmpty then .ok none
  else if !s.all Char.isDigit then .error .invalidPort
  else
    match Host.number? 10 s with
    | some n => if n ≤ 65535 then .ok (some n) else .error .invalidPort
    | none => .error .invalidPort

/-- The host text and the port text; a colon in brackets belongs to the host. -/
def splitPort : (inBrackets : Bool) → List Char → List Char × Option (List Char)
  | _, [] => ([], none)
  | inBrackets, c :: s =>
    if c = ':' && !inBrackets then ([], some s)
    else
      let rest := splitPort (if c = '[' then true else if c = ']' then false else inBrackets) s
      (c :: rest.1, rest.2)

/-- The user information: a name, and a password behind the first colon. -/
def userInfoOf (s : List Char) : List Char :=
  let name := percentEncode EncodeSet.userInfo (s.takeWhile (· ≠ ':'))
  let password := percentEncode EncodeSet.userInfo ((s.dropWhile (· ≠ ':')).drop 1)
  if password.isEmpty then name else name ++ ':' :: password

/-- The text before the last at sign, if there is one, and the text behind it. -/
def splitUser (s : List Char) : Option (List Char) × List Char :=
  let behind := (s.reverse.takeWhile (· ≠ '@')).reverse
  if behind.length = s.length then (none, s)
  else (some (s.take (s.length - behind.length - 1)), behind)

def authorityOf [Idna] (scheme s : List Char) : Except ParseError Authority := do
  let special := isSpecial scheme
  let (user, rest) := splitUser s
  let (hostText, portText) := splitPort false rest
  if hostText.isEmpty && (special || portText.isSome || user.isSome) then .error .emptyHost
  else
    let host ← if special then Host.parse hostText else Host.parseOther hostText
    let number ← port (portText.getD [])
    .ok ⟨userInfoOf (user.getD []), host, number.filter fun n => some n ≠ defaultPort? scheme⟩

/-! ## URLs -/

def withAuthority [Idna] (scheme s : List Char) : Except ParseError Url := do
  let special := isSpecial scheme
  let authority ← authorityOf scheme (s.takeWhile fun c => !endsAuthority special c)
  let rest := s.dropWhile fun c => !endsAuthority special c
  let segments :=
    match beforeQuery rest with
    | [] => if special then [[]] else []
    | _ :: path => pathSegments special path
  .ok ⟨scheme, some authority, .segments segments, queryOf special rest, fragmentOf rest⟩

/-- A file URL: a host behind two slashes, which is dropped before a drive, and a path. -/
def fileUrl [Idna] (s : List Char) : Except ParseError Url := do
  let plain := s.takeWhile fun c => !endsAuthority true c
  let leading := beforeQuery s
  let (hostText, path) :=
    match leading with
    | c :: d :: rest =>
      if isSlash true c && isSlash true d then
        let host := rest.takeWhile fun c => !isSlash true c
        if isDrive host then ([], rest) else (host, (rest.dropWhile fun c => !isSlash true c).drop 1)
      else ([], if plain.isEmpty then d :: rest else leading)
    | [c] => ([], if isSlash true c then [] else [c])
    | [] => ([], [])
  let host ← if hostText.isEmpty then .ok [] else Host.parse hostText
  let segments := filePathSegments path
  let named := host ≠ ['l', 'o', 'c', 'a', 'l', 'h', 'o', 's', 't'] &&
    !(segments.head?.any isDrive)
  .ok ⟨fileScheme, some ⟨[], if named then host else [], none⟩, .segments segments,
    queryOf true s, fragmentOf s⟩

def otherUrl [Idna] (scheme s : List Char) : Except ParseError Url :=
  match s with
  | '/' :: '/' :: rest => withAuthority scheme rest
  | '/' :: _ =>
    .ok ⟨scheme, none, .segments (pathSegments false ((beforeQuery s).drop 1)), queryOf false s,
      fragmentOf s⟩
  | _ =>
    .ok ⟨scheme, none, .rootless (percentEncode EncodeSet.control (beforeQuery s)), queryOf false s,
      fragmentOf s⟩

/-- The text without the characters that no URL holds. -/
def cleaned (s : List Char) : List Char :=
  let atEnd := fun (c : Char) => decide (c.toNat ≤ 0x20)
  (Text.dropTail atEnd (s.dropWhile atEnd)).filter fun c => !isDropped c

def parse [Idna] (s : String) : Except ParseError Url :=
  match splitScheme? (cleaned s.toList) with
  | none => .error .relative
  | some (scheme, rest) =>
    if scheme = fileScheme then fileUrl rest
    else if isSpecial scheme then withAuthority scheme (rest.dropWhile (isSlash true))
    else otherUrl scheme rest

end ToolNodes.Url
