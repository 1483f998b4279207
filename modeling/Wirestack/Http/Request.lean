import Wirestack.Http.Text

set_option autoImplicit false

/-! # The HTTP server's request parser and responses (`http.hpp`, `http.cpp`)

A stateless parser over everything received so far on a connection, the bounded buffer it reads
from, and the fixed set of responses. -/

namespace Wirestack

def kMaxHttpRequestLineLength : ℕ := 2048
def kMaxHttpHeaderBlockLength : ℕ := 8192

structure HttpRequest where
  method : List Byte
  target : List Byte
  version : List Byte
  deriving DecidableEq, Repr

inductive HttpParseStatus where
  | incomplete
  | complete
  | malformed
  | tooLarge
  | unsupportedMethod
  | unsupportedVersion
  deriving DecidableEq, Repr

structure HttpParseResult where
  status : HttpParseStatus
  request : Option HttpRequest := none
  deriving DecidableEq, Repr

/-! ## The request head -/

def isValidMethodToken (method : List Byte) : Bool := !method.isEmpty && method.all isTokenChar

def isValidTarget (target : List Byte) : Bool :=
  target.head? == some 0x2f && !target.any fun c => c == 0x20 || isControlByte c

/-- `HeadOutcome`, with the request that only a complete head has. -/
inductive HeadParse where
  | malformed
  | unsupportedMethod
  | unsupportedVersion
  | complete (request : HttpRequest)
  deriving DecidableEq, Repr

/-- The header loop: only the first `content-length`, with the exact value `0`, and no
    `transfer-encoding`. -/
def acceptsHeaders : Bool → List (List Byte) → Bool
  | _, [] => true
  | seenContentLength, line :: rest =>
    match headerField id line with
    | none => false
    | some (name, value) =>
      let lowerName := toLower name
      if lowerName == ascii "transfer-encoding" then false
      else if lowerName == ascii "content-length" then
        if seenContentLength then false
        else if value != ascii "0" then false
        else acceptsHeaders true rest
      else acceptsHeaders seenContentLength rest

def parseHead (headBlock : List Byte) : HeadParse :=
  match headLines headBlock.length headBlock with
  | none => .malformed
  | some lines =>
    let requestLine := lines.headD []
    if requestLine.isEmpty then .malformed
    else
      match splitExact requestLine 0x20 3 with
      | [method, target, version] =>
        if !isValidMethodToken method then .malformed
        else if !isValidVersionSyntax version then .malformed
        else if !isValidTarget target then .malformed
        else if method != ascii "GET" then .unsupportedMethod
        else if version != ascii "HTTP/1.0" then .unsupportedVersion
        else if !acceptsHeaders false (headerLines lines) then .malformed
        else .complete { method := method, target := target, version := version }
      | _ => .malformed

/-- Whether the first line, with its CRLF, is longer than a request line may be. -/
def requestLineTooLong (firstCrlf : Option ℕ) : Bool :=
  firstCrlf.any fun i => decide (i + 2 > kMaxHttpRequestLineLength)

def parseHttpRequest (buffer : List Byte) : HttpParseResult :=
  let firstCrlf := findText crlf buffer
  match findText headTerminator buffer with
  | none =>
    if requestLineTooLong firstCrlf then { status := .tooLarge }
    else if buffer.length ≥ kMaxHttpHeaderBlockLength then { status := .tooLarge }
    else { status := .incomplete }
  | some terminator =>
    if requestLineTooLong firstCrlf then { status := .tooLarge }
    else if terminator + 4 > kMaxHttpHeaderBlockLength then { status := .tooLarge }
    else
      let headBlock := buffer.take (terminator + 4)
      let extra := buffer.drop (terminator + 4)
      if headBlock.contains 0 then { status := .malformed }
      else
        match parseHead headBlock with
        | .malformed => { status := .malformed }
        | .unsupportedMethod => { status := .unsupportedMethod }
        | .unsupportedVersion => { status := .unsupportedVersion }
        | .complete request =>
          -- Pipelining and any other extra bytes are rejected.
          if !extra.isEmpty then { status := .malformed }
          else { status := .complete, request := some request }

/-! ## The request buffer -/

structure HttpConnectionState where
  buffer : List Byte := []
  responded : Bool := false
  deriving DecidableEq, Repr

/-- Append what fits under the cap; the rest is dropped. -/
def appendHttpBytes (state : HttpConnectionState) (bytes : List Byte) : HttpConnectionState :=
  if state.buffer.length ≥ kMaxHttpHeaderBlockLength then state
  else
    let room := kMaxHttpHeaderBlockLength - state.buffer.length
    let take := min room bytes.length
    { state with buffer := state.buffer ++ bytes.take take }

/-! ## Responses -/

inductive HttpStatus where
  | ok200
  | badRequest400
  | notFound404
  | methodNotAllowed405
  | versionNotSupported505
  deriving DecidableEq, Repr

structure HttpResponse where
  status : HttpStatus
  contentType : List Byte
  body : List Byte
  includeAllowGet : Bool := false
  deriving DecidableEq, Repr

def kPlainTextContentType : List Byte := ascii "text/plain; charset=utf-8"
def kSackTestBodySize : ℕ := 12000

/-- A plain text response. -/
def plainTextResponse (status : HttpStatus) (body : List Byte) : HttpResponse :=
  { status := status, contentType := kPlainTextContentType, body := body }

def makeOkResponse : HttpResponse := plainTextResponse .ok200 (ascii "Hello from Wirestack\n")

def makeBadRequestResponse : HttpResponse :=
  plainTextResponse .badRequest400 (ascii "Bad Request\n")

def makeNotFoundResponse : HttpResponse := plainTextResponse .notFound404 (ascii "Not Found\n")

/-- The only response that names the allowed method. -/
def makeMethodNotAllowedResponse : HttpResponse :=
  { plainTextResponse .methodNotAllowed405 (ascii "Method Not Allowed\n") with
    includeAllowGet := true }

def makeVersionNotSupportedResponse : HttpResponse :=
  plainTextResponse .versionNotSupported505 (ascii "HTTP Version Not Supported\n")

def selectResponse (request : HttpRequest) : HttpResponse :=
  if request.target = ascii "/" then makeOkResponse
  else if request.target = ascii "/sack-test" then
    plainTextResponse .ok200 (List.replicate kSackTestBodySize 0x73)
  else makeNotFoundResponse

def statusLine : HttpStatus → String
  | .ok200 => "200 OK"
  | .badRequest400 => "400 Bad Request"
  | .notFound404 => "404 Not Found"
  | .methodNotAllowed405 => "405 Method Not Allowed"
  | .versionNotSupported505 => "505 HTTP Version Not Supported"

def serializeHttpResponse (response : HttpResponse) : List Byte :=
  ascii "HTTP/1.0 " ++ ascii (statusLine response.status) ++ crlf ++
    ascii "Content-Type: " ++ response.contentType ++ crlf ++
    ascii "Content-Length: " ++ ascii (toString response.body.length) ++ crlf ++
    (if response.includeAllowGet then ascii "Allow: GET\r\n" else []) ++
    ascii "Connection: close\r\n" ++ crlf ++ response.body

end Wirestack
