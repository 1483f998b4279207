import Mathlib.Data.List.DropRight
import Wirestack.Http.Decimal

set_option autoImplicit false

/-! # The HTTP client's request and response parser (`http_client.hpp`, `http_client.cpp`)

The session record loses its address and port, which are only printed. -/

namespace Wirestack

def kMaxHttpResponseStatusLineLength : ℕ := 2048
def kMaxHttpResponseHeaderBlockLength : ℕ := 8192
def kMaxHttpResponseBodyLength : ℕ := 262144

/-! ## The status line -/

inductive StatusLineParse where
  | malformed
  | unsupportedVersion
  | ok (code : ℕ)
  deriving DecidableEq, Repr

/-- `line` excludes the trailing CRLF. -/
def parseStatusLine (line : List Byte) : StatusLineParse :=
  match findText [0x20] line with
  | none => .malformed
  | some firstSpace =>
    let version := line.take firstSpace
    if !isValidVersionSyntax version then .malformed
    else if version != ascii "HTTP/1.0" then .unsupportedVersion
    else
      let rest := line.drop (firstSpace + 1)
      -- No status code, or a second space.
      if rest.isEmpty || rest.head? == some 0x20 then .malformed
      else
        match findText [0x20] rest with
        | none => .malformed
        | some secondSpace =>
          match rest.take secondSpace with
          | [hundreds, tens, ones] =>
            if !isAllDigits [hundreds, tens, ones] then .malformed
            else
              let code := digitValue hundreds * 100 + digitValue tens * 10 + digitValue ones
              if code < 200 ∨ code > 599 then .malformed
              else if (rest.drop (secondSpace + 1)).any isForbiddenInValue then .malformed
              else .ok code
          | _ => .malformed

/-! ## The response -/

inductive HttpResponseParseStatus where
  | incomplete
  | complete
  | malformed
  | tooLarge
  | unsupportedVersion
  | unsupportedTransferEncoding
  | truncated
  deriving DecidableEq, Repr

structure HttpResponseParseResult where
  status : HttpResponseParseStatus
  statusCode : Option ℕ := none
  body : List Byte := []
  contentLengthPresent : Bool := false
  deriving DecidableEq, Repr

def reject (status : HttpResponseParseStatus) : HttpResponseParseResult := { status := status }

/-- What the header loop has found so far. -/
structure ResponseHeaders where
  seenContentLength : Bool := false
  hasTransferEncoding : Bool := false
  contentLength : ℕ := 0
  contentLengthOverflowed : Bool := false
  deriving DecidableEq, Repr

def trimTrailingOws (s : List Byte) : List Byte := s.rdropWhile isBlank

/-- The digits as a `std::uint64_t`, and whether the value would not fit. -/
def readContentLength : ℕ → List Byte → ℕ × Bool
  | v, [] => (v, false)
  | v, c :: rest =>
    if v > (2 ^ 64 - 1 - digitValue c) / 10 then (v, true)
    else readContentLength (v * 10 + digitValue c) rest

/-- The header loop; `none` is a malformed block. -/
def readResponseHeaders : ResponseHeaders → List (List Byte) → Option ResponseHeaders
  | headers, [] => some headers
  | headers, line :: rest =>
    match headerField trimTrailingOws line with
    | none => none
    | some (name, value) =>
      let lowerName := toLower name
      if lowerName == ascii "transfer-encoding" then
        readResponseHeaders { headers with hasTransferEncoding := true } rest
      else if lowerName == ascii "content-length" then
        -- A second one is malformed even if the values match.
        if headers.seenContentLength then none
        else if !isAllDigits value then none
        else
          let (contentLength, overflowed) := readContentLength 0 value
          readResponseHeaders
            { headers with
              seenContentLength := true
              contentLength := contentLength
              contentLengthOverflowed := overflowed } rest
      else readResponseHeaders headers rest

/-- The verdict once the header block has been read. -/
def completeResponse (headers : ResponseHeaders) (code : ℕ) (extra : List Byte)
    (peerClosed : Bool) : HttpResponseParseResult :=
  if headers.hasTransferEncoding then reject .unsupportedTransferEncoding
  else if headers.seenContentLength then
    if headers.contentLengthOverflowed ||
        decide (headers.contentLength > kMaxHttpResponseBodyLength) then reject .tooLarge
    else if extra.length > headers.contentLength then reject .malformed
    else if extra.length < headers.contentLength then
      if peerClosed then reject .truncated else reject .incomplete
    else
      { status := .complete, statusCode := some code, body := extra, contentLengthPresent := true }
  else if extra.length > kMaxHttpResponseBodyLength then reject .tooLarge
  else if !peerClosed then reject .incomplete
  else { status := .complete, statusCode := some code, body := extra }

def parseHttpResponse (buffer : List Byte) (peerClosed : Bool) : HttpResponseParseResult :=
  match findText crlf buffer with
  | none =>
    if buffer.length > kMaxHttpResponseStatusLineLength then reject .tooLarge
    else if peerClosed then reject .truncated
    else reject .incomplete
  | some statusLineEnd =>
    if statusLineEnd + 2 > kMaxHttpResponseStatusLineLength then reject .tooLarge
    else
      match parseStatusLine (buffer.take statusLineEnd) with
      | .malformed => reject .malformed
      | .unsupportedVersion => reject .unsupportedVersion
      | .ok code =>
        match findText headTerminator buffer with
        | none =>
          if buffer.length > kMaxHttpResponseHeaderBlockLength then reject .tooLarge
          else if peerClosed then reject .truncated
          else reject .incomplete
        | some terminator =>
          if terminator + 4 > kMaxHttpResponseHeaderBlockLength then reject .tooLarge
          else
            let headerBlock := buffer.take (terminator + 4)
            let extra := buffer.drop (terminator + 4)
            if headerBlock.contains 0 then reject .malformed
            else
              match headLines headerBlock.length headerBlock with
              | none => reject .malformed
              | some lines =>
                match readResponseHeaders {} (headerLines lines) with
                | none => reject .malformed
                | some headers => completeResponse headers code extra peerClosed

/-! ## The session -/

structure HttpClientSession where
  hostHeader : List Byte
  target : List Byte
  requestEnqueued : Bool := false
  responseBuffer : List Byte := []
  peerFinSeen : Bool := false
  responseOverflowed : Bool := false
  responseComplete : Bool := false
  failed : Bool := false
  closeInitiated : Bool := false
  statusCode : ℕ := 0
  body : List Byte := []
  deriving DecidableEq, Repr

/-- Bytes that do not all fit are not appended at all; the session never recovers from that. -/
def appendHttpClientBytes (session : HttpClientSession) (bytes : List Byte) : HttpClientSession :=
  if session.responseOverflowed then session
  else
    let cap := kMaxHttpResponseHeaderBlockLength + kMaxHttpResponseBodyLength
    let room := cap - session.responseBuffer.length
    if bytes.length > room then { session with responseOverflowed := true }
    else { session with responseBuffer := session.responseBuffer ++ bytes }

/-! ## The request -/

inductive HttpClientTargetError where
  | empty
  | missingLeadingSlash
  | invalidByte
  deriving DecidableEq, Repr

inductive HttpClientHostError where
  | empty
  | invalidByte
  deriving DecidableEq, Repr

/-- A space or control byte, which would break the structure of the request. -/
def isForbiddenInRequest (c : Byte) : Bool := c == 0x20 || isControlByte c

def validateHttpClientTarget (target : List Byte) : Option HttpClientTargetError :=
  if target.isEmpty then some .empty
  else if target.head? != some 0x2f then some .missingLeadingSlash
  else if target.any isForbiddenInRequest then some .invalidByte
  else none

def validateHttpClientHost (hostHeader : List Byte) : Option HttpClientHostError :=
  if hostHeader.isEmpty then some .empty
  else if hostHeader.any isForbiddenInRequest then some .invalidByte
  else none

def buildHttpGetRequest (hostHeader target : List Byte) : Option (List Byte) :=
  if (validateHttpClientTarget target).isSome || (validateHttpClientHost hostHeader).isSome then
    none
  else
    some (ascii "GET " ++ target ++ ascii " HTTP/1.0\r\n" ++ ascii "Host: " ++ hostHeader ++ crlf ++
      ascii "Connection: close\r\n" ++ crlf)

end Wirestack
