import WsprryPico.Wtp.Json

/-!
# Requests and responses

`HttpRequest` and `HttpResponse` of `network/http.hpp`, without what only the transport reads,
and `http_error` of `network/http.cpp`.
-/

namespace WsprryPico.Network

open Lib Wtp.Json

def maxHttpBody : Nat := 32768

structure HttpRequest where
  method : Bytes
  path : Bytes
  headers : List (Bytes × Bytes) := []
  /-- `body_view`. -/
  body : Bytes := []
  /-- `buffered_body` holds the body, and nobody else holds it. -/
  owned : Bool := false

def HttpRequest.header (name : String) (request : HttpRequest) : Bytes :=
  (request.headers.lookup (ascii name)).getD []

/-- What holds the body of a response. -/
inductive ResponseBody where
  | text (bytes : Bytes)
  | buffered (bytes : Bytes)
  | fixed (bytes : Bytes)
  | parts (bodies : List Bytes)
  | generated (bytes : Bytes) (jsonDocument : Bool)

def ResponseBody.bytes : ResponseBody → Bytes
  | .text bytes | .buffered bytes | .fixed bytes | .generated bytes _ => bytes
  | .parts bodies => bodies.flatten

structure HttpResponse where
  status : Nat := 200
  body : ResponseBody := .text []
  etag : Bytes := []
  controlWrapped : Bool := false

def HttpResponse.bodySize (response : HttpResponse) : Nat := response.body.bytes.length

def httpError (status : Nat) (code : String) : HttpResponse where
  status
  body := .text
    (ascii "\x7b\"error\":\x7b\"code\":" ++ quote (ascii code) ++ ascii "\x7d\x7d")

def httpOk (body : Bytes) : HttpResponse where
  body := .text body

end WsprryPico.Network
