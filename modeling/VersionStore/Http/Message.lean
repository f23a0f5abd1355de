import VersionStore.Json.Value
import VersionStore.Text.Bytes
import VersionStore.Url

/-! Requests and responses of HTTP. -/
namespace VersionStore

inductive HttpMethod where
  | get
  | put
  | post
  | delete
  deriving DecidableEq

def HttpMethod.name : HttpMethod → String
  | .get => "GET"
  | .put => "PUT"
  | .post => "POST"
  | .delete => "DELETE"

/-- A request, with the credentials that it shows. -/
structure HttpRequest where
  method : HttpMethod
  url : Url
  authorization : List String
  body : Option Json.Value

namespace HttpRequest

/-- The content types that a request announces: that of JSON, if it has a body. -/
def contentTypes (request : HttpRequest) : List String :=
  if request.body.isSome then ["application/json"] else []

end HttpRequest

/-- Credentials as a request shows them: user name, colon and password in base 64. -/
def basicCredentials (user password : List Char) : String :=
  "Basic " ++ String.ofList (Text.base64 (Text.encodeUtf8 (user ++ ':' :: password)))

namespace Url

/-- The user name and password that a URL holds, if it holds any that can be read. -/
def credentials? (url : Url) : Option (List Char × List Char) := do
  let user ← percentDecodeText? url.user
  let password := url.password.bind percentDecodeText?
  if user.isEmpty && password.isNone then none else some (user, password.getD [])

def withoutUser (url : Url) : Url := {url with user := [], password := none}

end Url

structure HttpResponse where
  status : Nat
  content : String

namespace HttpResponse

/-- Whether the request was carried out. -/
def isSuccess (response : HttpResponse) : Bool :=
  decide (200 ≤ response.status ∧ response.status < 300)

/-- Whether a response answers the request. Most statuses below 200 only announce an answer,
and there are none beyond three digits. -/
def isFinal (response : HttpResponse) : Bool :=
  decide (response.status = 101 ∨ (200 ≤ response.status ∧ response.status < 1000))

/-- The body of a response; three statuses say that there is none. -/
def body (response : HttpResponse) : String :=
  if response.status = 101 ∨ response.status = 204 ∨ response.status = 304 then ""
  else response.content

end HttpResponse

/-- The phrase that belongs to a status, if it has one. -/
def reasonPhrase? : Nat → Option String
  | 100 => some "Continue"
  | 101 => some "Switching Protocols"
  | 102 => some "Processing"
  | 200 => some "OK"
  | 201 => some "Created"
  | 202 => some "Accepted"
  | 203 => some "Non Authoritative Information"
  | 204 => some "No Content"
  | 205 => some "Reset Content"
  | 206 => some "Partial Content"
  | 207 => some "Multi-Status"
  | 208 => some "Already Reported"
  | 226 => some "IM Used"
  | 300 => some "Multiple Choices"
  | 301 => some "Moved Permanently"
  | 302 => some "Found"
  | 303 => some "See Other"
  | 304 => some "Not Modified"
  | 305 => some "Use Proxy"
  | 307 => some "Temporary Redirect"
  | 308 => some "Permanent Redirect"
  | 400 => some "Bad Request"
  | 401 => some "Unauthorized"
  | 402 => some "Payment Required"
  | 403 => some "Forbidden"
  | 404 => some "Not Found"
  | 405 => some "Method Not Allowed"
  | 406 => some "Not Acceptable"
  | 407 => some "Proxy Authentication Required"
  | 408 => some "Request Timeout"
  | 409 => some "Conflict"
  | 410 => some "Gone"
  | 411 => some "Length Required"
  | 412 => some "Precondition Failed"
  | 413 => some "Payload Too Large"
  | 414 => some "URI Too Long"
  | 415 => some "Unsupported Media Type"
  | 416 => some "Range Not Satisfiable"
  | 417 => some "Expectation Failed"
  | 418 => some "I'm a teapot"
  | 421 => some "Misdirected Request"
  | 422 => some "Unprocessable Entity"
  | 423 => some "Locked"
  | 424 => some "Failed Dependency"
  | 425 => some "Too Early"
  | 426 => some "Upgrade Required"
  | 428 => some "Precondition Required"
  | 429 => some "Too Many Requests"
  | 431 => some "Request Header Fields Too Large"
  | 451 => some "Unavailable For Legal Reasons"
  | 500 => some "Internal Server Error"
  | 501 => some "Not Implemented"
  | 502 => some "Bad Gateway"
  | 503 => some "Service Unavailable"
  | 504 => some "Gateway Timeout"
  | 505 => some "HTTP Version Not Supported"
  | 506 => some "Variant Also Negotiates"
  | 507 => some "Insufficient Storage"
  | 508 => some "Loop Detected"
  | 510 => some "Not Extended"
  | 511 => some "Network Authentication Required"
  | _ => none

def statusText (status : Nat) : String :=
  toString status ++ " " ++ (reasonPhrase? status).getD "<unknown status code>"

end VersionStore
