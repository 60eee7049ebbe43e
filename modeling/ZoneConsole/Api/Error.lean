import ZoneConsole.Json
import ZoneConsole.Url

/-!
# Errors of the service

What can go wrong with a call: the request never got an answer, its URL cannot be
made, the server rejected it, or the answer is not what was asked for.

* **`ApiError.ofBody`** makes the error of a rejected request from whatever body
  came with the status: a body that is not of the documented shape gives the
  standard phrase of the status.
* **`ApiError.message`** is the text of an error, **`ApiError.plain`** the same
  without status and code of the server.
-/

namespace ZoneConsole

/-- Why a request got no answer. -/
inductive TransportCause
  | connect | timeout | dropped | redirect | body | builder
  deriving DecidableEq, Repr

/-- What went wrong with a request that got no answer. -/
def TransportCause.message : TransportCause → String
  | builder => "builder error"
  | redirect => "error following redirect"
  | body => "error decoding response body"
  | connect | timeout | dropped => "error sending request"

/-- What can go wrong with a call. A request without an answer keeps its URL, unless an
    answer came and broke off. -/
inductive ApiError
  | transport (cause : TransportCause) (url : Option Url)
  | invalidUrl (error : UrlError)
  | rejected (status : Nat) (code : String) (message : String)
      (details : Option (List (String × String)))
  | undecodable (message : String) (body : String)
  deriving DecidableEq, Repr

/-- The code of an error whose body carries none. -/
def unknownErrorCode : String := "UNKNOWN_ERROR"

/-- The standard phrase of a status. -/
def reasonPhrase? : Nat → Option String
  | 100 => some "Continue" | 101 => some "Switching Protocols" | 102 => some "Processing"
  | 200 => some "OK" | 201 => some "Created" | 202 => some "Accepted"
  | 203 => some "Non Authoritative Information" | 204 => some "No Content"
  | 205 => some "Reset Content" | 206 => some "Partial Content" | 207 => some "Multi-Status"
  | 208 => some "Already Reported" | 226 => some "IM Used"
  | 300 => some "Multiple Choices" | 301 => some "Moved Permanently" | 302 => some "Found"
  | 303 => some "See Other" | 304 => some "Not Modified" | 305 => some "Use Proxy"
  | 307 => some "Temporary Redirect" | 308 => some "Permanent Redirect"
  | 400 => some "Bad Request" | 401 => some "Unauthorized" | 402 => some "Payment Required"
  | 403 => some "Forbidden" | 404 => some "Not Found" | 405 => some "Method Not Allowed"
  | 406 => some "Not Acceptable" | 407 => some "Proxy Authentication Required"
  | 408 => some "Request Timeout" | 409 => some "Conflict" | 410 => some "Gone"
  | 411 => some "Length Required" | 412 => some "Precondition Failed"
  | 413 => some "Payload Too Large" | 414 => some "URI Too Long"
  | 415 => some "Unsupported Media Type" | 416 => some "Range Not Satisfiable"
  | 417 => some "Expectation Failed" | 418 => some "I'm a teapot"
  | 421 => some "Misdirected Request" | 422 => some "Unprocessable Entity"
  | 423 => some "Locked" | 424 => some "Failed Dependency" | 425 => some "Too Early"
  | 426 => some "Upgrade Required" | 428 => some "Precondition Required"
  | 429 => some "Too Many Requests" | 431 => some "Request Header Fields Too Large"
  | 451 => some "Unavailable For Legal Reasons"
  | 500 => some "Internal Server Error" | 501 => some "Not Implemented"
  | 502 => some "Bad Gateway" | 503 => some "Service Unavailable" | 504 => some "Gateway Timeout"
  | 505 => some "HTTP Version Not Supported" | 506 => some "Variant Also Negotiates"
  | 507 => some "Insufficient Storage" | 508 => some "Loop Detected"
  | 510 => some "Not Extended" | 511 => some "Network Authentication Required"
  | _ => none

/-- The phrase of a status, or its digits if there is none. -/
def reasonPhrase (status : Nat) : String :=
  (reasonPhrase? status).getD (String.ofList (Text.decimal status))

/-- The documented shape of the body of a rejection, with its loosely typed members
    kept as trees. -/
structure Rejection where
  error : Option String
  message : Option String
  code : Option Data
  details : Option Data

namespace Rejection

/-- A body that says nothing. -/
def empty : Rejection := ⟨none, none, none, none⟩

/-- The fields of the body. -/
def fields : Record Rejection Rejection :=
  Record.done mk
    |>.field (.omittable "error" .text) error
    |>.field (.omittable "message" .text) message
    |>.field (.omittable "code" (.anything 126)) code
    |>.field (.omittable "details" (.anything 126)) details

/-- The codec of bodies of rejections. -/
def codec : Codec Rejection := fields.codec "ErrorBody"

/-- The body that a text writes; any other text says nothing. -/
def read (body : String) : Rejection :=
  match Json.decode codec body with
  | .ok r => r
  | .error _ => empty

end Rejection

/-- A loosely typed member as a text: a text as it stands, anything else in JSON. -/
def memberText : Data → String
  | .str s => s
  | d => String.ofList (Json.compact d)

namespace ApiError

/-- The error of a rejected request. -/
def ofBody (status : Nat) (body : String) : ApiError :=
  let r := Rejection.read body
  let message := (r.error.or r.message).filter (!·.isEmpty)
  let code := (r.code.map memberText).filter (!·.isEmpty)
  let details := match r.details with
    | some (.map members) => some (members.map fun (n, d) => (n, memberText d))
    | _ => none
  rejected status (code.getD unknownErrorCode) (message.getD (reasonPhrase status)) details

/-- The status, if the server answered at all. -/
def status? : ApiError → Option Nat
  | rejected status _ _ _ => some status
  | _ => none

/-- The code the server gave. -/
def code? : ApiError → Option String
  | rejected _ code _ _ => some code
  | _ => none

/-- What the server said about single fields. -/
def details? : ApiError → Option (List (String × String))
  | rejected _ _ _ details => details
  | _ => none

/-- The text of an error. -/
def message : ApiError → String
  | transport cause none => "HTTP transport error: " ++ cause.message
  | transport cause (some url) =>
    "HTTP transport error: " ++ cause.message ++ " for url (" ++ url.write ++ ")"
  | invalidUrl e => "Invalid URL: " ++ e.message
  | rejected status code message _ =>
    "API error (HTTP " ++ String.ofList (Text.decimal status) ++ ", " ++ code ++ "): " ++ message
  | undecodable message _ => "Deserialization error: " ++ message

/-- The text of an error without the status and the code of the server. -/
def plain : ApiError → String
  | rejected _ _ message _ => message
  | e => e.message

/-- Did the server say that there is no such thing? -/
def isNotFound (e : ApiError) : Bool := e.status? = some 404

/-- Might the same request succeed later? -/
def isTransient : ApiError → Bool
  | transport cause _ => cause = .connect ∨ cause = .timeout
  | rejected status _ _ _ => 502 ≤ status ∧ status ≤ 504
  | _ => false

end ApiError

end ZoneConsole
