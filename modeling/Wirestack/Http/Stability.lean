import Wirestack.Http.Incremental
import Wirestack.Http.Verdict

set_option autoImplicit false

/-! # Verdicts that stand

Both parsers start over on everything received so far. Their verdict does not depend on how the bytes
were cut into pieces all the same: a message that ends up complete was incomplete at every point before
its last byte, and one that is refused stays refused, for the same reason, whatever follows. The limits
are what makes this delicate, since they are tested on what there is until the end of a line or of the
head is found, and on where it was found from then on. -/

namespace Wirestack

open List

/-! ## Requests -/

section

variable {buffer more : List Byte}

theorem parseHttpRequest_longLine (h : requestLineTooLong (findText crlf buffer) = true) :
    parseHttpRequest buffer = { status := .tooLarge } := by
  unfold parseHttpRequest
  split
  · rw [if_pos h]
  · rw [if_pos h]

theorem requestLineTooLong_append (h : requestLineTooLong (findText crlf buffer) = true) :
    requestLineTooLong (findText crlf (buffer ++ more)) = true := by
  cases hcrlf : findText crlf buffer with
  | none =>
    rw [hcrlf] at h
    exact nomatch h
  | some i =>
    rw [hcrlf] at h
    rwa [findText_append hcrlf]

theorem parseHttpRequest_earlier (hmore : more ≠ [])
    (h : (parseHttpRequest (buffer ++ more)).status = .complete) :
    (parseHttpRequest buffer).status = .incomplete := by
  have hshort : buffer.length < (buffer ++ more).length := by
    rw [length_append]
    exact Nat.lt_add_of_pos_right (length_pos_iff.2 hmore)
  have hlimit := parseHttpRequest_complete_length h
  have hline : ¬requestLineTooLong (findText crlf buffer) = true := by
    intro hlong
    simp [parseHttpRequest_longLine (requestLineTooLong_append hlong)] at h
  -- nothing is behind the head of a complete request, so the head is not all there yet
  obtain ⟨terminator, hterminator, -, hends, -⟩ := exists_head_of_complete h
  have hnone : findText headTerminator buffer = none :=
    findText_eq_none_of_append hterminator (lt_of_lt_of_le hshort hends)
  rw [parseHttpRequest, hnone, if_neg hline, if_neg (by omega)]

theorem parseHttpRequest_append (hincomplete : (parseHttpRequest buffer).status ≠ .incomplete)
    (hcomplete : (parseHttpRequest buffer).status ≠ .complete) (more : List Byte) :
    (parseHttpRequest (buffer ++ more)).status = (parseHttpRequest buffer).status := by
  by_cases hline : requestLineTooLong (findText crlf buffer) = true
  · rw [parseHttpRequest_longLine hline,
      parseHttpRequest_longLine (requestLineTooLong_append hline)]
  cases hterminator : findText headTerminator buffer with
  | none =>
    have hlong : kMaxHttpHeaderBlockLength ≤ buffer.length := by
      by_contra hshort
      refine hincomplete ?_
      rw [parseHttpRequest, hterminator, if_neg hline, if_neg hshort]
    rw [parseHttpRequest_unterminated hterminator hlong]
    cases hlater : findText headTerminator (buffer ++ more) with
    | none => rw [parseHttpRequest_unterminated hlater (by rw [length_append]; omega)]
    | some terminator =>
      -- a head that ends only now is longer than the limit already
      have hlt := lt_of_findText_append hterminator hlater
      rw [show headTerminator.length = 4 from rfl] at hlt
      rw [parseHttpRequest_terminated hlater, if_pos (.inr (by omega))]
  | some terminator =>
    have hsame := parseHttpRequest_terminated hterminator
    rw [parseHttpRequest_terminated_append hterminator, hsame]
    split_ifs with hlimits
    · rfl
    rw [hsame, if_neg hlimits] at hcomplete
    by_cases hextra : buffer.drop (terminator + 4) = []
    · rw [hextra] at hcomplete ⊢
      by_cases hmore : more = []
      · rw [hmore]
        rfl
      · rw [nil_append, judgeHead_extra hmore, if_neg hcomplete]
    · rw [judgeHead_extra hextra, judgeHead_extra (append_ne_nil_of_left_ne_nil hextra _)]

end

/-! ## Responses -/

section

variable {buffer : List Byte}

theorem completeResponse_append {headers : ResponseHeaders} {code : ℕ} {extra : List Byte}
    (hincomplete : (completeResponse headers code extra false).status ≠ .incomplete)
    (hcomplete : (completeResponse headers code extra false).status ≠ .complete)
    (more : List Byte) (peerClosed : Bool) :
    (completeResponse headers code (extra ++ more) peerClosed).status =
      (completeResponse headers code extra false).status := by
  unfold completeResponse at hincomplete hcomplete ⊢
  rw [length_append]
  by_cases hencoding : headers.hasTransferEncoding = true
  · rw [if_pos hencoding, if_pos hencoding]
  rw [if_neg hencoding] at hincomplete hcomplete ⊢
  rw [if_neg hencoding]
  by_cases hseen : headers.seenContentLength = true
  · rw [if_pos hseen] at hincomplete hcomplete ⊢
    rw [if_pos hseen]
    by_cases hlarge : (headers.contentLengthOverflowed ||
        decide (headers.contentLength > kMaxHttpResponseBodyLength)) = true
    · rw [if_pos hlarge, if_pos hlarge]
    rw [if_neg hlarge] at hincomplete hcomplete ⊢
    rw [if_neg hlarge]
    -- short of its length the body is incomplete, and at its length complete
    have hmore : extra.length > headers.contentLength := by
      by_contra hle
      rw [if_neg hle] at hincomplete hcomplete
      by_cases hshort : extra.length < headers.contentLength
      · rw [if_pos hshort] at hincomplete
        exact hincomplete rfl
      · rw [if_neg hshort] at hcomplete
        exact hcomplete rfl
    rw [if_pos hmore, if_pos (Nat.lt_add_right _ hmore)]
  · rw [if_neg hseen] at hincomplete ⊢
    rw [if_neg hseen]
    have hlarge : extra.length > kMaxHttpResponseBodyLength := by
      by_contra hle
      rw [if_neg hle] at hincomplete
      exact hincomplete rfl
    rw [if_pos hlarge, if_pos (Nat.lt_add_right _ hlarge)]

theorem parseHttpResponse_append
    (hincomplete : (parseHttpResponse buffer false).status ≠ .incomplete)
    (hcomplete : (parseHttpResponse buffer false).status ≠ .complete) (more : List Byte)
    (peerClosed : Bool) : (parseHttpResponse (buffer ++ more) peerClosed).status =
      (parseHttpResponse buffer false).status := by
  unfold parseHttpResponse at hincomplete hcomplete ⊢
  cases hcrlf : findText crlf buffer with
  | none =>
    rw [hcrlf] at hincomplete
    dsimp only at hincomplete ⊢
    have hlong : buffer.length > kMaxHttpResponseStatusLineLength := by
      by_contra hle
      rw [if_neg hle] at hincomplete
      exact hincomplete rfl
    rw [if_pos hlong]
    cases hlater : findText crlf (buffer ++ more) with
    | none => rw [length_append, if_pos (Nat.lt_add_right _ hlong)]
    | some statusLineEnd =>
      have hlt : buffer.length < statusLineEnd + 2 := lt_of_findText_append hcrlf hlater
      dsimp only
      rw [if_pos (lt_trans hlong hlt)]
  | some statusLineEnd =>
    rw [hcrlf] at hincomplete hcomplete
    rw [findText_append hcrlf]
    have hfits : statusLineEnd + 2 ≤ buffer.length := findText_le hcrlf
    have hline : (buffer ++ more).take statusLineEnd = buffer.take statusLineEnd :=
      take_append_of_le_length (by omega)
    dsimp only at hincomplete hcomplete ⊢
    by_cases hlong : statusLineEnd + 2 > kMaxHttpResponseStatusLineLength
    · rw [if_pos hlong, if_pos hlong]
    rw [if_neg hlong] at hincomplete hcomplete ⊢
    rw [if_neg hlong, hline]
    cases hstatus : parseStatusLine (buffer.take statusLineEnd) with
    | malformed | unsupportedVersion => rfl
    | ok code =>
      rw [hstatus] at hincomplete hcomplete
      dsimp only at hincomplete hcomplete ⊢
      cases hterminator : findText headTerminator buffer with
      | none =>
        rw [hterminator] at hincomplete
        dsimp only at hincomplete ⊢
        have hlong : buffer.length > kMaxHttpResponseHeaderBlockLength := by
          by_contra hle
          rw [if_neg hle] at hincomplete
          exact hincomplete rfl
        rw [if_pos hlong]
        cases hlater : findText headTerminator (buffer ++ more) with
        | none => rw [length_append, if_pos (Nat.lt_add_right _ hlong)]
        | some terminator =>
          have hlt : buffer.length < terminator + 4 := lt_of_findText_append hterminator hlater
          dsimp only
          rw [if_pos (lt_trans hlong hlt)]
      | some terminator =>
        rw [hterminator] at hincomplete hcomplete
        rw [findText_append hterminator]
        have hfits : terminator + 4 ≤ buffer.length := findText_le hterminator
        dsimp only at hincomplete hcomplete ⊢
        rw [take_append_of_le_length hfits, drop_append_of_le_length hfits]
        split_ifs at hincomplete hcomplete ⊢ with hlarge hnul
        · rfl
        · rfl
        cases hlines : headLines (buffer.take (terminator + 4)).length
            (buffer.take (terminator + 4)) with
        | none => rfl
        | some lines =>
          rw [hlines] at hincomplete hcomplete
          dsimp only at hincomplete hcomplete ⊢
          cases hheaders : readResponseHeaders {} (headerLines lines) with
          | none => rfl
          | some headers =>
            rw [hheaders] at hincomplete hcomplete
            exact completeResponse_append hincomplete hcomplete more peerClosed

end

/-- **Parsing is stable.** What ends up complete was incomplete at every earlier point, and what is
    refused stays refused. -/
theorem httpParsing_stable (bytes : List Byte) (peerClosed : Bool) :
    ((parseHttpRequest bytes).status = .complete → ∀ front, front <+: bytes → front ≠ bytes →
        (parseHttpRequest front).status = .incomplete) ∧
    ((parseHttpRequest bytes).status ∈
        [.malformed, .tooLarge, .unsupportedMethod, .unsupportedVersion] →
      ∀ more, (parseHttpRequest (bytes ++ more)).status = (parseHttpRequest bytes).status) ∧
    ((parseHttpResponse bytes peerClosed).status = .complete → ∀ front, front <+: bytes →
        front ≠ bytes → (parseHttpResponse front false).status = .incomplete) ∧
    ((parseHttpResponse bytes false).status ≠ .incomplete →
      (parseHttpResponse bytes false).status ≠ .complete →
      ∀ more, (parseHttpResponse (bytes ++ more) peerClosed).status =
        (parseHttpResponse bytes false).status) := by
  have hmissing : ∀ {front more : List Byte}, front ≠ front ++ more → more ≠ [] := by
    rintro front more hne rfl
    exact hne (append_nil front).symm
  refine ⟨?_, ?_, ?_, ?_⟩
  · rintro hcomplete front ⟨more, rfl⟩ hne
    exact parseHttpRequest_earlier (hmissing hne) hcomplete
  · intro hrefused
    refine parseHttpRequest_append (fun h => ?_) (fun h => ?_)
    · rw [h] at hrefused
      exact absurd hrefused (by decide)
    · rw [h] at hrefused
      exact absurd hrefused (by decide)
  · rintro hcomplete front ⟨more, rfl⟩ hne
    exact parseHttpResponse_earlier (hmissing hne) hcomplete
  · intro hincomplete hcomplete more
    exact parseHttpResponse_append hincomplete hcomplete more peerClosed

/-- A request and a response that arrive whole, and one of each that no further byte can save. -/
theorem httpParsing_stable_example :
    (∀ front, front <+: ascii "GET / HTTP/1.0\r\n\r\n" → front ≠ ascii "GET / HTTP/1.0\r\n\r\n" →
      (parseHttpRequest front).status = .incomplete) ∧
    (∀ more, (parseHttpRequest (ascii "PUT / HTTP/1.0\r\n\r\n" ++ more)).status =
      .unsupportedMethod) ∧
    (∀ front, front <+: ascii "HTTP/1.0 200 OK\r\nContent-Length: 1\r\n\r\nx" →
      front ≠ ascii "HTTP/1.0 200 OK\r\nContent-Length: 1\r\n\r\nx" →
      (parseHttpResponse front false).status = .incomplete) ∧
    ∀ more, (parseHttpResponse (ascii "HTTP/9.9 200 OK\r\n" ++ more) true).status =
      .unsupportedVersion := by
  have hrequest : (parseHttpRequest (ascii "GET / HTTP/1.0\r\n\r\n")).status = .complete := by
    decide +kernel
  have hrefused : (parseHttpRequest (ascii "PUT / HTTP/1.0\r\n\r\n")).status =
      .unsupportedMethod := by
    decide +kernel
  have hresponse : (parseHttpResponse (ascii "HTTP/1.0 200 OK\r\nContent-Length: 1\r\n\r\nx")
      false).status = .complete := by
    decide +kernel
  have hversion : (parseHttpResponse (ascii "HTTP/9.9 200 OK\r\n") false).status =
      .unsupportedVersion := by
    decide +kernel
  have hstays := (httpParsing_stable (ascii "PUT / HTTP/1.0\r\n\r\n") false).2.1
  have hlater := (httpParsing_stable (ascii "HTTP/9.9 200 OK\r\n") true).2.2.2
  rw [hrefused] at hstays
  rw [hversion] at hlater
  exact ⟨(httpParsing_stable _ false).1 hrequest, hstays (by decide),
    (httpParsing_stable _ false).2.2.1 hresponse, hlater (by decide) (by decide)⟩

end Wirestack
