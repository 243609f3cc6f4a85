import ToolNodes.Store
import ToolNodes.Url.Host

/-!
# Errors

What an operation on the registry or on a tool fails with. Every error has a kind, a wording and,
when a node answered with an error status, that status.
-/

namespace ToolNodes

inductive Argument where
  | nameOrUrlMissing
  | toolMissing
  | toolInvalid (tool : String)
  | urlInvalid (node : String) (cause : Url.ParseError)
  | urlWithoutPath (node url : String)
deriving DecidableEq, Repr

def Argument.message : Argument → String
  | nameOrUrlMissing => "Both name and URL are required"
  | toolMissing => "Tool name is required"
  | toolInvalid tool => "Invalid tool name '" ++ tool ++ "'"
  | urlInvalid node cause => "Invalid URL for node '" ++ node ++ "': " ++ cause.message
  | urlWithoutPath node url => "URL for node '" ++ node ++ "' cannot take a path: " ++ url

def statusReason (status : Nat) : String :=
  match status with
  | 100 => "Continue"
  | 101 => "Switching Protocols"
  | 102 => "Processing"
  | 200 => "OK"
  | 201 => "Created"
  | 202 => "Accepted"
  | 203 => "Non Authoritative Information"
  | 204 => "No Content"
  | 205 => "Reset Content"
  | 206 => "Partial Content"
  | 207 => "Multi-Status"
  | 208 => "Already Reported"
  | 226 => "IM Used"
  | 300 => "Multiple Choices"
  | 301 => "Moved Permanently"
  | 302 => "Found"
  | 303 => "See Other"
  | 304 => "Not Modified"
  | 305 => "Use Proxy"
  | 307 => "Temporary Redirect"
  | 308 => "Permanent Redirect"
  | 400 => "Bad Request"
  | 401 => "Unauthorized"
  | 402 => "Payment Required"
  | 403 => "Forbidden"
  | 404 => "Not Found"
  | 405 => "Method Not Allowed"
  | 406 => "Not Acceptable"
  | 407 => "Proxy Authentication Required"
  | 408 => "Request Timeout"
  | 409 => "Conflict"
  | 410 => "Gone"
  | 411 => "Length Required"
  | 412 => "Precondition Failed"
  | 413 => "Payload Too Large"
  | 414 => "URI Too Long"
  | 415 => "Unsupported Media Type"
  | 416 => "Range Not Satisfiable"
  | 417 => "Expectation Failed"
  | 418 => "I'm a teapot"
  | 421 => "Misdirected Request"
  | 422 => "Unprocessable Entity"
  | 423 => "Locked"
  | 424 => "Failed Dependency"
  | 425 => "Too Early"
  | 426 => "Upgrade Required"
  | 428 => "Precondition Required"
  | 429 => "Too Many Requests"
  | 431 => "Request Header Fields Too Large"
  | 451 => "Unavailable For Legal Reasons"
  | 500 => "Internal Server Error"
  | 501 => "Not Implemented"
  | 502 => "Bad Gateway"
  | 503 => "Service Unavailable"
  | 504 => "Gateway Timeout"
  | 505 => "HTTP Version Not Supported"
  | 506 => "Variant Also Negotiates"
  | 507 => "Insufficient Storage"
  | 508 => "Loop Detected"
  | 510 => "Not Extended"
  | 511 => "Network Authentication Required"
  | _ => "<unknown status code>"

def statusText (status : Nat) : String := toString status ++ " " ++ statusReason status

def isErrorStatus (status : Nat) : Bool := 400 ≤ status && status ≤ 599

inductive TransportError where
  /-- A header cannot hold the token. -/
  | headerRefused
  /-- No request can be made for the URL. -/
  | urlRefused (url : String)
  /-- No answer came. -/
  | unanswered (url : String)
  /-- The answer is one redirect too many. -/
  | redirected (url : String)
  /-- The answer has an error status. -/
  | badStatus (status : Nat) (url : String)
  /-- The body broke off. -/
  | bodyBroken
deriving DecidableEq, Repr

def TransportError.message : TransportError → String
  | headerRefused => "builder error"
  | urlRefused url => "builder error for url (" ++ url ++ ")"
  | unanswered url => "error sending request for url (" ++ url ++ ")"
  | redirected url => "error following redirect for url (" ++ url ++ ")"
  | badStatus status url =>
    "HTTP status " ++ (if status < 500 then "client" else "server") ++ " error (" ++
      statusText status ++ ") for url (" ++ url ++ ")"
  | bodyBroken => "error decoding response body"

def TransportError.status? : TransportError → Option Nat
  | badStatus status _ => some status
  | _ => none

inductive Error where
  | invalidArgument (reason : Argument)
  | notFound (name : String)
  | noActiveNode
  | network (url : String) (cause : TransportError)
  | malformedResponse (url : String) (cause : Json.Error)
  | store (cause : StoreError)
deriving DecidableEq, Repr

namespace Error

def kind : Error → String
  | invalidArgument _ => "InvalidArgument"
  | notFound _ => "NotFound"
  | noActiveNode => "NoActiveNode"
  | network _ _ => "NetworkError"
  | malformedResponse _ _ => "MalformedResponse"
  | store _ => "StoreError"

def message : Error → String
  | invalidArgument reason => "Invalid argument: " ++ reason.message
  | notFound name => "MCP node '" ++ name ++ "' not found"
  | noActiveNode => "No active MCP node configured"
  | network url cause => "Network error calling " ++ url ++ ": " ++ cause.message
  | malformedResponse url cause => "Malformed response from " ++ url ++ ": " ++ cause.message
  | store cause => "Failed to persist node state: " ++ cause.message

def status? : Error → Option Nat
  | network _ cause => cause.status?
  | _ => none

/-- An error as it is shown: kind and wording. -/
def rendered (e : Error) : String := e.kind ++ ": " ++ e.message

end Error

end ToolNodes
