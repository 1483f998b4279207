import Wirestack.Http.RequestGrammar
import Wirestack.Http.ResponseGrammar

set_option autoImplicit false

/-! # What one side writes, the other side reads

The client's requests and the server's responses are written without the parsers in sight. Both are
heads in the sense of the grammars, with values that the writers' own checks keep free of control
bytes, so the parsers of the other side give back what was written. -/

namespace Wirestack

open List

variable {target hostHeader : List Byte}

/-! ## Requests -/

theorem isForbiddenInValue_of_not_request : ∀ c : Byte, isForbiddenInRequest c = false →
    c ≠ 0x20 ∧ isControlByte c = false ∧ isForbiddenInValue c = false :=
  forall_byte (by decide +kernel)

theorem validTarget_of_validate (h : validateHttpClientTarget target = none) :
    ValidTarget target := by
  unfold validateHttpClientTarget at h
  split_ifs at h with hempty hslash hclean
  rw [bne_iff_ne, not_not] at hslash
  rw [Bool.not_eq_true, any_eq_false] at hclean
  refine ⟨hslash, fun c hc => ?_⟩
  have hallowed := isForbiddenInValue_of_not_request c (Bool.eq_false_of_not_eq_true (hclean c hc))
  exact ⟨hallowed.1, hallowed.2.1⟩

theorem host_clean_of_validate (h : validateHttpClientHost hostHeader = none) :
    ∀ c ∈ hostHeader, isForbiddenInValue c = false := by
  unfold validateHttpClientHost at h
  split_ifs at h with hempty hclean
  rw [Bool.not_eq_true, any_eq_false] at hclean
  exact fun c hc =>
    (isForbiddenInValue_of_not_request c (Bool.eq_false_of_not_eq_true (hclean c hc))).2.2

/-- The header `name: value`. -/
def spacedHeader (name value : List Byte) (name_ne_nil : name ≠ [])
    (name_token : ∀ c ∈ name, isTokenChar c = true)
    (value_clean : ∀ c ∈ value, isForbiddenInValue c = false) : HeaderLine where
  name := name
  value := 0x20 :: value
  name_ne_nil := name_ne_nil
  name_token := name_token
  value_clean := forall_mem_cons.2 ⟨by decide, value_clean⟩

def connectionHeader : HeaderLine :=
  spacedHeader (ascii "Connection") (ascii "close") (by decide) (by decide +kernel)
    (by decide +kernel)

theorem buildHttpGetRequest_eq {bytes : List Byte}
    (h : buildHttpGetRequest hostHeader target = some bytes) :
    ValidTarget target ∧ ∃ host : HeaderLine, host.name = ascii "Host" ∧
      bytes = requestBytes target [host, connectionHeader] := by
  unfold buildHttpGetRequest at h
  split_ifs at h with hinvalid
  rw [Bool.or_eq_true, not_or, Option.not_isSome_iff_eq_none,
    Option.not_isSome_iff_eq_none] at hinvalid
  obtain ⟨htarget, hhost⟩ := hinvalid
  refine ⟨validTarget_of_validate htarget,
    spacedHeader (ascii "Host") hostHeader (by decide) (by decide +kernel)
      (host_clean_of_validate hhost), rfl, ?_⟩
  rw [← Option.some.inj h]
  have hline : ascii " HTTP/1.0\r\n" = ascii " HTTP/1.0" ++ crlf := by decide
  have hhost : ascii "Host: " = ascii "Host" ++ [0x3a, 0x20] := by decide
  have hconnection : ascii "Connection: close\r\n" =
      (ascii "Connection" ++ 0x3a :: 0x20 :: ascii "close") ++ crlf := by decide
  rw [hline, hhost, hconnection]
  simp [requestBytes, headBytes, requestLine, connectionHeader, spacedHeader, HeaderLine.bytes]

theorem bodiless_request {host : HeaderLine} (h : host.name = ascii "Host") :
    Bodiless 1 [host, connectionHeader] := by
  refine bodiless_of_silent (forall_mem_cons.2 ⟨?_, forall_mem_singleton.2 ?_⟩)
  · rw [HeaderLine.isNamed, HeaderLine.isNamed, h]
    exact ⟨by decide, by decide⟩
  · exact ⟨by decide, by decide⟩

theorem requestBytes_lines (htarget : ValidTarget target) (headers : List HeaderLine) :
    ∃ lines : List (List Byte), lines.length = headers.length + 2 ∧
      requestBytes target headers = joinLines lines ∧
      ∀ line ∈ lines, 0x0d ∉ line ∧ 0x0a ∉ line := by
  refine ⟨requestLine target :: headers.map HeaderLine.bytes ++ [[]], ?_, ?_, ?_⟩
  · rw [length_append, length_cons, length_map]
    rfl
  · have hbytes := headBytes_append (requestLine target) headers []
    rw [append_nil, append_nil] at hbytes
    rw [requestBytes, hbytes, joinLines, joinLines, flatMap_append]
    rfl
  · intro line hline
    rcases mem_append.1 hline with hline | hline
    · have hhead := htarget.headLine.lines headers line hline
      exact ⟨hhead.no_cr, hhead.no_lf⟩
    · rw [mem_singleton.1 hline]
      exact ⟨not_mem_nil, not_mem_nil⟩

/-! ## Numbers -/

theorem isDigit_excludes : ∀ c : Byte, isDigit c = true →
    isBlank c = false ∧ isForbiddenInValue c = false :=
  forall_byte (by decide +kernel)

/-! ## Responses -/

/-- The number that a status stands for. -/
def HttpStatus.code : HttpStatus → ℕ
  | .ok200 => 200
  | .badRequest400 => 400
  | .notFound404 => 404
  | .methodNotAllowed405 => 405
  | .versionNotSupported505 => 505

theorem exists_statusLine (status : HttpStatus) : ∃ line : StatusLine,
    line.bytes = ascii "HTTP/1.0 " ++ ascii (statusLine status) ∧ line.code = status.code ∧
      line.bytes.length + 2 ≤ kMaxHttpResponseStatusLineLength := by
  cases status with
  | ok200 =>
    refine ⟨⟨ascii "200", ascii "OK", ?_, ?_, ?_, ?_⟩, ?_, ?_, ?_⟩ <;> decide +kernel
  | badRequest400 =>
    refine ⟨⟨ascii "400", ascii "Bad Request", ?_, ?_, ?_, ?_⟩, ?_, ?_, ?_⟩ <;> decide +kernel
  | notFound404 =>
    refine ⟨⟨ascii "404", ascii "Not Found", ?_, ?_, ?_, ?_⟩, ?_, ?_, ?_⟩ <;> decide +kernel
  | methodNotAllowed405 =>
    refine ⟨⟨ascii "405", ascii "Method Not Allowed", ?_, ?_, ?_, ?_⟩, ?_, ?_, ?_⟩ <;>
      decide +kernel
  | versionNotSupported505 =>
    refine ⟨⟨ascii "505", ascii "HTTP Version Not Supported", ?_, ?_, ?_, ?_⟩, ?_, ?_, ?_⟩ <;>
      decide +kernel

def allowHeader : HeaderLine :=
  spacedHeader (ascii "Allow") (ascii "GET") (by decide) (by decide +kernel) (by decide +kernel)

/-- The header with the length of a body. -/
def lengthHeader (n : ℕ) : HeaderLine :=
  spacedHeader (ascii "Content-Length") (ascii (toString n)) (by decide) (by decide +kernel)
    fun c hc => (isDigit_excludes c ((isAllDigits_iff.1 (isAllDigits_toString n)).2 c hc)).2

theorem trimmed_lengthHeader (n : ℕ) : (lengthHeader n).trimmed = ascii (toString n) := by
  obtain ⟨hne, hdigits⟩ := isAllDigits_iff.1 (isAllDigits_toString n)
  have hblank : ∀ c ∈ ascii (toString n), ¬isBlank c = true := by
    intro c hc
    rw [(isDigit_excludes c (hdigits c hc)).1]
    exact Bool.false_ne_true
  show ((0x20 :: ascii (toString n)).dropWhile isBlank).rdropWhile isBlank = _
  rw [dropWhile_cons_of_pos (by decide), dropWhile_eq_self_iff.2 fun _ => hblank _ (getElem_mem _),
    rdropWhile_eq_self_iff.2 fun _ => hblank _ (getLast_mem _)]

/-- The headers of a response. -/
def responseHeaders (contentType : HeaderLine) (n : ℕ) (allowGet : Bool) : List HeaderLine :=
  [contentType, lengthHeader n] ++ (if allowGet then [allowHeader] else []) ++ [connectionHeader]

theorem serializeHttpResponse_eq {response : HttpResponse}
    (hclean : ∀ c ∈ response.contentType, isForbiddenInValue c = false) :
    ∃ (line : StatusLine) (contentType : HeaderLine), line.code = response.status.code ∧
      line.bytes.length + 2 ≤ kMaxHttpResponseStatusLineLength ∧
      contentType.name = ascii "Content-Type" ∧
      serializeHttpResponse response = headBytes line.bytes
        (responseHeaders contentType response.body.length response.includeAllowGet) ++
          response.body := by
  obtain ⟨line, hbytes, hcode, hlimit⟩ := exists_statusLine response.status
  refine ⟨line, spacedHeader (ascii "Content-Type") response.contentType (by decide)
    (by decide +kernel) hclean, hcode, hlimit, rfl, ?_⟩
  have htype : ascii "Content-Type: " = ascii "Content-Type" ++ [0x3a, 0x20] := by decide
  have hlength : ascii "Content-Length: " = ascii "Content-Length" ++ [0x3a, 0x20] := by decide
  have hallow : ascii "Allow: GET\r\n" =
      (ascii "Allow" ++ 0x3a :: 0x20 :: ascii "GET") ++ crlf := by decide
  have hconnection : ascii "Connection: close\r\n" =
      (ascii "Connection" ++ 0x3a :: 0x20 :: ascii "close") ++ crlf := by decide
  rw [serializeHttpResponse, hbytes, htype, hlength, hallow, hconnection]
  cases response.includeAllowGet with
  | true =>
    simp [headBytes, responseHeaders, lengthHeader, allowHeader, connectionHeader, spacedHeader,
      HeaderLine.bytes]
  | false =>
    simp [headBytes, responseHeaders, lengthHeader, connectionHeader, spacedHeader,
      HeaderLine.bytes]

section

variable {contentType : HeaderLine} (hname : contentType.name = ascii "Content-Type") (n : ℕ)
  (allowGet : Bool)
include hname

theorem responseHeaders_noEncoding : ∀ header ∈ responseHeaders contentType n allowGet,
    header.isNamed "transfer-encoding" = false := by
  have htype : contentType.isNamed "transfer-encoding" = false := by
    rw [HeaderLine.isNamed, hname]
    decide
  have hlength : (lengthHeader n).isNamed "transfer-encoding" = false := by
    show (toLower (ascii "Content-Length") == ascii "transfer-encoding") = false
    decide
  refine forall_mem_cons.2 ⟨htype, forall_mem_cons.2 ⟨hlength, ?_⟩⟩
  cases allowGet with
  | true | false => decide

theorem filter_responseHeaders : (responseHeaders contentType n allowGet).filter
    (HeaderLine.isNamed · "content-length") = [lengthHeader n] := by
  have htype : ¬contentType.isNamed "content-length" = true := by
    rw [HeaderLine.isNamed, hname]
    decide
  have hlength : (lengthHeader n).isNamed "content-length" = true := by
    show (toLower (ascii "Content-Length") == ascii "content-length") = true
    decide
  have hrest : ((if allowGet then [allowHeader] else []) ++ [connectionHeader]).filter
      (HeaderLine.isNamed · "content-length") = [] := by
    cases allowGet with
    | true | false => rfl
  show (contentType :: lengthHeader n ::
    ((if allowGet then [allowHeader] else []) ++ [connectionHeader])).filter _ = _
  rw [filter_cons, if_neg htype, filter_cons, if_pos hlength, hrest]

end

/-! ## Both sides -/

/-- **The formats of the two sides agree.** A request that the client writes has no line ends but its
    own four and is what the server reads, within the server's limits; a response that the server
    writes is what the client reads, whatever the body is. -/
theorem httpFormats_agree :
    (∀ hostHeader target bytes : List Byte, buildHttpGetRequest hostHeader target = some bytes →
      (∃ lines : List (List Byte), lines.length = 4 ∧ bytes = joinLines lines ∧
        ∀ line ∈ lines, 0x0d ∉ line ∧ 0x0a ∉ line) ∧
      parseHttpRequest bytes = if (requestLine target).length + 2 ≤ kMaxHttpRequestLineLength ∧
          bytes.length ≤ kMaxHttpHeaderBlockLength then
          { status := .complete
            request := some
              { method := ascii "GET", target := target, version := ascii "HTTP/1.0" } }
        else { status := .tooLarge }) ∧
    (∀ (response : HttpResponse) (peerClosed : Bool),
      (∀ c ∈ response.contentType, isForbiddenInValue c = false) →
      response.body.length ≤ kMaxHttpResponseBodyLength →
      (serializeHttpResponse response).length ≤
        kMaxHttpResponseHeaderBlockLength + response.body.length →
      (parseHttpResponse (serializeHttpResponse response) peerClosed).status = .complete ∧
      (parseHttpResponse (serializeHttpResponse response) peerClosed).statusCode =
        some response.status.code ∧
      (parseHttpResponse (serializeHttpResponse response) peerClosed).body = response.body) := by
  refine ⟨?_, ?_⟩
  · intro hostHeader target bytes hbuilt
    obtain ⟨htarget, host, hname, rfl⟩ := buildHttpGetRequest_eq hbuilt
    refine ⟨requestBytes_lines htarget [host, connectionHeader], ?_⟩
    rw [parseHttpRequest_requestBytes htarget (bodiless_request hname)]
    split_ifs with hlarge hfits hfits
    · omega
    · rfl
    · rfl
    · omega
  · intro response peerClosed hclean hbody hblock
    obtain ⟨line, contentType, hcode, hline, hname, hbytes⟩ := serializeHttpResponse_eq hclean
    rw [hbytes, length_append] at hblock
    rw [hbytes, ← hcode]
    refine parseHttpResponse_headBytes hline (by omega)
      (responseHeaders_noEncoding hname _ _) ?_ hbody
    rw [BodyDelimited, filter_responseHeaders hname]
    show isAllDigits (lengthHeader response.body.length).trimmed = true ∧ _
    rw [trimmed_lengthHeader]
    exact ⟨isAllDigits_toString _, decimal_toString _⟩

/-- The request of a client for the root of a host, and the server's answer to a bad one. -/
theorem httpFormats_agree_example :
    (∃ bytes, buildHttpGetRequest (ascii "a") (ascii "/") = some bytes ∧
      (∃ lines : List (List Byte), lines.length = 4 ∧ bytes = joinLines lines ∧
        ∀ line ∈ lines, 0x0d ∉ line ∧ 0x0a ∉ line) ∧
      (parseHttpRequest bytes).status = .complete) ∧
    (parseHttpResponse (serializeHttpResponse makeBadRequestResponse) false).statusCode =
      some 400 := by
  have hsome : (buildHttpGetRequest (ascii "a") (ascii "/")).map (fun bytes =>
      decide ((requestLine (ascii "/")).length + 2 ≤ kMaxHttpRequestLineLength ∧
        bytes.length ≤ kMaxHttpHeaderBlockLength)) = some true := by
    decide +kernel
  obtain ⟨bytes, hbuilt, hfits⟩ := Option.map_eq_some_iff.1 hsome
  obtain ⟨hlines, hparsed⟩ := httpFormats_agree.1 _ _ _ hbuilt
  rw [if_pos (of_decide_eq_true hfits)] at hparsed
  have hread := httpFormats_agree.2 makeBadRequestResponse false (by decide +kernel)
    (by decide +kernel) (by decide +kernel)
  exact ⟨⟨bytes, hbuilt, hlines, by rw [hparsed]⟩, hread.2.1⟩

end Wirestack
