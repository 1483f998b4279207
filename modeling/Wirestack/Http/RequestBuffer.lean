import Wirestack.Http.RequestGrammar

set_option autoImplicit false

/-! # The capped request buffer

`appendHttpBytes` drops what does not fit under the header-block limit, so the parser sees the first
8192 of the bytes that were received. It judges them as it would judge all of them, except where a
complete request ends exactly at the limit: the bytes behind it, which would make it malformed, are
the ones that were dropped. -/

namespace Wirestack

open List

/-! ## What is in the buffer -/

theorem appendHttpBytes_buffer {state : HttpConnectionState} {received : List Byte}
    (h : state.buffer = received.take kMaxHttpHeaderBlockLength) (bytes : List Byte) :
    (appendHttpBytes state bytes).buffer = (received ++ bytes).take kMaxHttpHeaderBlockLength := by
  have hlength : state.buffer.length = min kMaxHttpHeaderBlockLength received.length := by
    rw [h, length_take]
  unfold appendHttpBytes
  split_ifs with hfull
  · rw [h, take_append_of_le_length (by omega)]
  · have hall : received.take kMaxHttpHeaderBlockLength = received := take_of_length_le (by omega)
    rw [hall] at h
    show state.buffer ++ bytes.take (min _ bytes.length) = _
    rw [h, take_append, hall, take_eq_take_min]
    simp

theorem foldl_appendHttpBytes_buffer (chunks : List (List Byte)) :
    (chunks.foldl appendHttpBytes {}).buffer = chunks.flatten.take kMaxHttpHeaderBlockLength := by
  induction chunks using reverseRecOn with
  | nil => rfl
  | append_singleton chunks chunk ih =>
    rw [foldl_append, flatten_append, flatten_singleton]
    exact appendHttpBytes_buffer ih chunk

/-! ## The verdict on the first bytes -/

theorem parseHttpRequest_take (received : List Byte) :
    parseHttpRequest (received.take kMaxHttpHeaderBlockLength) = parseHttpRequest received ∨
      kMaxHttpHeaderBlockLength < received.length ∧
        (parseHttpRequest (received.take kMaxHttpHeaderBlockLength)).status = .complete ∧
        (parseHttpRequest received).status = .malformed := by
  by_cases hlen : received.length ≤ kMaxHttpHeaderBlockLength
  · rw [take_of_length_le hlen]
    exact .inl rfl
  · have hmore : received.drop kMaxHttpHeaderBlockLength ≠ [] := mt drop_eq_nil_iff.1 hlen
    have hlength : (received.take kMaxHttpHeaderBlockLength).length = kMaxHttpHeaderBlockLength :=
      length_take_of_le (not_le.1 hlen).le
    obtain ⟨buffer, hbuffer⟩ : ∃ buffer, received.take kMaxHttpHeaderBlockLength = buffer := ⟨_, rfl⟩
    have hreceived := take_append_drop kMaxHttpHeaderBlockLength received
    rw [hbuffer] at hreceived hlength ⊢
    rw [← hreceived]
    generalize received.drop kMaxHttpHeaderBlockLength = more at hmore ⊢
    cases hterminator : findText headTerminator buffer with
    | none =>
      rw [parseHttpRequest_unterminated hterminator hlength.ge]
      cases hlater : findText headTerminator (buffer ++ more) with
      | none =>
        rw [parseHttpRequest_unterminated hlater (by rw [length_append]; omega)]
        exact .inl rfl
      | some terminator =>
        -- a head that ends behind the first bytes is too large
        have hlt : buffer.length < terminator + 4 := lt_of_findText_append hterminator hlater
        rw [parseHttpRequest_terminated hlater, if_pos (.inr (by omega))]
        exact .inl rfl
    | some terminator =>
      rw [parseHttpRequest_terminated hterminator, parseHttpRequest_terminated_append hterminator]
      split_ifs
      · exact .inl rfl
      · by_cases hnil : buffer.drop (terminator + 4) = []
        · rw [hnil, nil_append, judgeHead_extra hmore]
          split_ifs with hcomplete
          · refine .inr ⟨?_, hcomplete, rfl⟩
            rw [length_append]
            have := length_pos_iff.2 hmore
            omega
          · exact .inl rfl
        · rw [judgeHead_extra hnil, judgeHead_extra (append_ne_nil_of_left_ne_nil hnil _)]
          exact .inl rfl

/-- Two results that lead to the same response. -/
def HttpParseResult.Agrees (a b : HttpParseResult) : Prop :=
  a.status = b.status ∧ (a.status = .complete → a.request = b.request)

theorem complete_take_iff (received : List Byte) : (kMaxHttpHeaderBlockLength < received.length ∧
        (parseHttpRequest (received.take kMaxHttpHeaderBlockLength)).status = .complete) ↔
      ∃ target headers extra, ValidTarget target ∧ Bodiless 1 headers ∧
        (requestLine target).length + 2 ≤ kMaxHttpRequestLineLength ∧
        (requestBytes target headers).length = kMaxHttpHeaderBlockLength ∧ extra ≠ [] ∧
        received = requestBytes target headers ++ extra := by
  constructor
  · rintro ⟨hlong, hcomplete⟩
    obtain ⟨target, headers, hbytes, htarget, hbodiless⟩ := eq_requestBytes_of_complete hcomplete
    rw [hbytes, parseHttpRequest_requestBytes htarget hbodiless] at hcomplete
    split_ifs at hcomplete with hlimits
    refine ⟨target, headers, received.drop kMaxHttpHeaderBlockLength, htarget, hbodiless,
      not_lt.1 (not_or.1 hlimits).1, ?_, mt drop_eq_nil_iff.1 (not_le.2 hlong), ?_⟩
    · rw [← hbytes, length_take_of_le hlong.le]
    · rw [← hbytes, take_append_drop]
  · rintro ⟨target, headers, extra, htarget, hbodiless, hline, hlength, hextra, rfl⟩
    rw [length_append, hlength, take_left' hlength, parseHttpRequest_requestBytes htarget hbodiless,
      if_neg (not_or.2 ⟨not_lt.2 hline, not_lt.2 hlength.le⟩)]
    exact ⟨Nat.lt_add_of_pos_right (length_pos_iff.2 hextra), rfl⟩

/-- **The buffer gives the verdict on everything that was received**, unless that is a request which
    ends exactly at the limit, and more bytes behind it. -/
theorem httpBuffer_agrees_iff (chunks : List (List Byte)) :
    (parseHttpRequest (chunks.foldl appendHttpBytes {}).buffer).Agrees
        (parseHttpRequest chunks.flatten) ↔
      ¬ ∃ target headers extra, ValidTarget target ∧ Bodiless 1 headers ∧
        (requestLine target).length + 2 ≤ kMaxHttpRequestLineLength ∧
        (requestBytes target headers).length = kMaxHttpHeaderBlockLength ∧ extra ≠ [] ∧
        chunks.flatten = requestBytes target headers ++ extra := by
  rw [foldl_appendHttpBytes_buffer, ← complete_take_iff]
  rcases parseHttpRequest_take chunks.flatten with hsame | ⟨hlong, hcomplete, hmalformed⟩
  · rw [hsame]
    refine iff_of_true ⟨rfl, fun _ => rfl⟩ ?_
    rintro ⟨hlong, hcomplete⟩
    exact absurd hlong (not_lt.2 (parseHttpRequest_complete_length hcomplete))
  · refine iff_of_false (fun ⟨hstatus, _⟩ => ?_) (not_not.2 ⟨hlong, hcomplete⟩)
    simp [hcomplete, hmalformed] at hstatus

/-! ## A request that ends at the limit of the buffer -/

/-- The header line that fills a request up. -/
def paddingLine (n : ℕ) : List Byte := ascii "X-Pad: " ++ replicate n 0x61

/-- `GET /` with one header, of `n + 27` bytes in all. -/
def paddedRequest (n : ℕ) : List Byte :=
  ascii "GET / HTTP/1.0" ++ (crlf ++ (paddingLine n ++ headTerminator))

theorem length_paddedRequest (n : ℕ) : (paddedRequest n).length = n + 27 := by
  have hline : (paddingLine n).length = 7 + n := by
    rw [paddingLine, length_append, length_replicate]
    rfl
  rw [paddedRequest, length_append, length_append, length_append, hline]
  show 14 + (2 + (7 + n + 4)) = _
  omega

theorem paddedRequest_eq (n : ℕ) : ∃ header : HeaderLine, header.name = ascii "X-Pad" ∧
    paddedRequest n = requestBytes (ascii "/") [header] := by
  refine ⟨⟨ascii "X-Pad", 0x20 :: replicate n 0x61, by decide, by decide +kernel,
    forall_mem_cons.2 ⟨by decide, fun c hc => ?_⟩⟩, rfl, ?_⟩
  · rw [eq_of_mem_replicate hc]
    decide
  · have hname : ascii "X-Pad: " = ascii "X-Pad" ++ [0x3a, 0x20] := by decide
    have hend : headTerminator = crlf ++ crlf := by decide
    rw [requestBytes, show requestLine (ascii "/") = ascii "GET / HTTP/1.0" from by decide,
      paddedRequest, paddingLine, hname, hend]
    simp [headBytes, HeaderLine.bytes]

theorem parseHttpRequest_paddedRequest {n : ℕ} (hn : n + 27 ≤ kMaxHttpHeaderBlockLength) :
    (parseHttpRequest (paddedRequest n)).status = .complete := by
  obtain ⟨header, hname, hbytes⟩ := paddedRequest_eq n
  have htarget : ValidTarget (ascii "/") := ⟨by decide, by decide +kernel⟩
  have hbodiless : Bodiless 1 [header] := by
    refine bodiless_of_silent (forall_mem_singleton.2 ?_)
    rw [HeaderLine.isNamed, HeaderLine.isNamed, hname]
    exact ⟨by decide, by decide⟩
  rw [← length_paddedRequest, hbytes] at hn
  rw [hbytes, parseHttpRequest_requestBytes htarget hbodiless,
    if_neg (not_or.2 ⟨by decide, not_lt.2 hn⟩)]

/-- A request of exactly 8192 bytes and one more byte: the buffer holds a complete request, while
    what was received is malformed. -/
theorem httpBuffer_accepts_extra :
    (parseHttpRequest ([paddedRequest 8165, [0x58]].foldl appendHttpBytes {}).buffer).status =
        .complete ∧
      (parseHttpRequest [paddedRequest 8165, [0x58]].flatten).status = .malformed := by
  have hbuffer : ([paddedRequest 8165, [0x58]].foldl appendHttpBytes {}).buffer =
      paddedRequest 8165 := by
    rw [foldl_appendHttpBytes_buffer]
    exact take_left' (length_paddedRequest 8165)
  have hcomplete := @parseHttpRequest_paddedRequest 8165 (by decide)
  rw [hbuffer]
  exact ⟨hcomplete, parseHttpRequest_complete_append hcomplete (cons_ne_nil _ _)⟩

end Wirestack
