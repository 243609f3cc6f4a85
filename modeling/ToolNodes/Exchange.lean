import ToolNodes.Url.Basic

/-!
# Exchanges with a peer

A request goes to the peer that answers for every host. A peer that can be reached sees the request and
takes the next of its replies; when none is left, or the next one is that the connection closes, there is
no answer. A reply that sends the request elsewhere is followed by a request of its own, ten times at
most. A peer that cannot be reached sees nothing and answers nothing.
-/

namespace ToolNodes

/-! ## Requests -/

inductive Method where
  | get
  | post
deriving DecidableEq, Repr

def Method.name : Method → String
  | get => "GET"
  | post => "POST"

/-- A request as the peer sees it. The names of its header fields are in lower case. -/
structure Request where
  method : Method
  url : Url
  headers : List (String × String)
  body : String
deriving DecidableEq, Repr

namespace Request

def values (q : Request) (name : String) : List String :=
  (q.headers.filter fun field => field.1 = name).map Prod.snd

/-- The request without the header fields of a name. -/
def without (q : Request) (name : String) : Request :=
  { q with headers := q.headers.filter fun field => field.1 ≠ name }

end Request

def Client.sendable (scheme : List Char) : Bool :=
  scheme = ['h', 't', 't', 'p'] || scheme = ['h', 't', 't', 'p', 's']

/-! ## Credentials -/

/-- The digits of base 64. -/
def base64Digit (n : Nat) : Char :=
  if n < 26 then Char.ofNat (65 + n)
  else if n < 52 then Char.ofNat (71 + n)
  else if n < 62 then Char.ofNat (n - 4)
  else if n = 62 then '+'
  else '/'

/-- Bytes in base 64, with padding. -/
def base64 : List UInt8 → List Char
  | [] => []
  | [a] =>
    let n := a.toNat * 16
    [base64Digit (n / 64), base64Digit (n % 64), '=', '=']
  | [a, b] =>
    let n := (a.toNat * 256 + b.toNat) * 4
    [base64Digit (n / 4096), base64Digit (n / 64 % 64), base64Digit (n % 64), '=']
  | a :: b :: c :: rest =>
    let n := (a.toNat * 256 + b.toNat) * 256 + c.toNat
    base64Digit (n / 262144) :: base64Digit (n / 4096 % 64) :: base64Digit (n / 64 % 64) ::
      base64Digit (n % 64) :: base64 rest

/-- The authorization by a name and a password. -/
def Url.Credentials.basic (c : Credentials) : String :=
  "Basic " ++ String.ofList (base64 (Text.Utf8.encode (c.user ++ ":" ++ c.password.getD "")))

/-! ## Replies -/

/-- An answer: its status, its body as far as it came, whether that was all of it, and the URL that its
`Location` leads to, if it has one. -/
structure Reply where
  status : Nat
  body : List UInt8
  complete : Bool
  location : Option Url := none
  /-- It is no interim answer, and its status has three digits. -/
  final : status = 101 ∨ 200 ≤ status ∧ status ≤ 999 := by decide
deriving DecidableEq, Repr

namespace Reply

def bodiless (status : Nat) : Bool := status = 101 || status = 204 || status = 304

def content (r : Reply) : List UInt8 := if bodiless r.status then [] else r.body

def isWhole (r : Reply) : Bool := bodiless r.status || r.complete

/-- Whether a redirect with the status asks for the same request again. -/
def repeats (status : Nat) : Bool := status = 307 || status = 308

def target? (r : Reply) : Option Url :=
  if [301, 302, 303].contains r.status || repeats r.status then r.location else none

end Reply

/-! ## Redirects -/

def maxRedirects : Nat := 10

/-- The request naming its URL to another one that it leads to, unless it was a secure one and the other
is not. -/
def Request.referred (q : Request) (url : Url) : Request :=
  if q.url.scheme = ['h', 't', 't', 'p', 's'] && url.scheme = ['h', 't', 't', 'p'] then q
  else
    { q.without "referer" with
      headers := (q.without "referer").headers ++ [("referer", q.url.withoutUserInfo.toString)] }

/-- The request that follows on a redirect. It is a `GET` unless the redirect asks for the same request
again, and it gives no authorization to another server. -/
def Request.redirected (q : Request) (status : Nat) (url : Url) : Request :=
  let repeated :=
    if Reply.repeats status then q
    else { q.without "content-type" with method := .get, body := "" }
  let referred := repeated.referred url
  let permitted :=
    if url.sameServer q.url then referred else referred.without "authorization"
  { permitted with url := url.withoutFragment }

inductive Delivery.Ending where
  | answer (reply : Reply)
  /-- The connection closes. -/
  | closed
  /-- The answer is one redirect too many. -/
  | tooMany
  /-- A redirect leads to a URL that no request is made for. -/
  | refused (url : Url)
deriving DecidableEq, Repr

/-- What a request comes to in the end, and the URL that was asked last, if a redirect led there. -/
structure Delivery where
  place : Option Url
  ending : Delivery.Ending
deriving DecidableEq, Repr

/-- The answer that counts, if there is one. -/
def Delivery.reply? (d : Delivery) : Option Reply :=
  match d.ending with
  | .answer reply => some reply
  | _ => none

/-! ## Peers -/

/-- The other side of the wire: whether it can be reached, the replies that it has left, the requests
that were made of it, and those that followed on redirects. -/
structure Peer where
  reachable : Bool := true
  replies : List (Option Reply) := []
  seen : List Request := []
  followed : List Request := []

namespace Peer

/-- The reply that is next, unless the connection closes. -/
def next? (p : Peer) : Option Reply := p.replies.head?.join

/-- The peer without the reply that is next. -/
def rest (p : Peer) : Peer := { p with replies := p.replies.tail }

def sees (p : Peer) (q : Request) : Peer := { p with seen := p.seen ++ [q] }

def follows (p : Peer) (q : Request) : Peer := { p with followed := p.followed ++ [q] }

/-- Takes the reply to a request for a place, and follows it while redirects are left. -/
def follow : (left : Nat) → Peer → Request → (place : Option Url) → Peer × Delivery
  | left, p, q, place =>
    match p.next? with
    | none => (p.rest, ⟨place, .closed⟩)
    | some reply =>
      match reply.target? with
      | none => (p.rest, ⟨place, .answer reply⟩)
      | some url =>
        match left with
        | 0 => (p.rest, ⟨place, .tooMany⟩)
        | left + 1 =>
          if Client.sendable url.scheme then
            let next := q.redirected reply.status url
            follow left (p.rest.follows next) next (some url)
          else (p.rest, ⟨place, .refused url⟩)

def send (p : Peer) (request : Request) : Peer × Delivery :=
  if p.reachable then follow maxRedirects (p.sees request) request none
  else (p, ⟨none, .closed⟩)

end Peer

end ToolNodes
