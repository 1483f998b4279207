import Wirestack.Http.Client

set_option autoImplicit false

/-! # Incremental parsing of a response

`parseHttpResponse` is run again on everything received so far whenever bytes come in. Once the
header block is there it is read the same way however much follows (`ResponseHead`), so a response
that ends up complete is incomplete at every earlier point (`parseHttpResponse_earlier`). -/

namespace Wirestack

variable {peerClosed : Bool} {more extra : List Byte}

/-- The buffer starts with a header block that the parser reads without complaint; what is left for
    the verdict is the body. -/
structure ResponseHead (buffer : List Byte) (code terminator : ℕ) (headers : ResponseHeaders) :
    Prop where
  statusLine : ∃ statusLineEnd, findText crlf buffer = some statusLineEnd ∧
    statusLineEnd ≤ terminator ∧ statusLineEnd + 2 ≤ kMaxHttpResponseStatusLineLength ∧
    parseStatusLine (buffer.take statusLineEnd) = .ok code
  terminated : findText headTerminator buffer = some terminator
  limit : terminator + 4 ≤ kMaxHttpResponseHeaderBlockLength
  noNul : (buffer.take (terminator + 4)).contains 0 = false
  lines : ∃ lines, headLines (buffer.take (terminator + 4)).length (buffer.take (terminator + 4)) =
    some lines ∧ readResponseHeaders {} (headerLines lines) = some headers

section

variable {buffer : List Byte} {code terminator : ℕ} {headers : ResponseHeaders}

theorem ResponseHead.parse (h : ResponseHead buffer code terminator headers) (peerClosed : Bool) :
    parseHttpResponse buffer peerClosed =
      completeResponse headers code (buffer.drop (terminator + 4)) peerClosed := by
  obtain ⟨statusLineEnd, hcrlf, -, hline, hstatus⟩ := h.statusLine
  obtain ⟨lines, hlines, hheaders⟩ := h.lines
  rw [parseHttpResponse, hcrlf]
  dsimp only
  rw [if_neg (not_lt.2 hline), hstatus, h.terminated]
  dsimp only
  rw [if_neg (not_lt.2 h.limit), h.noNul, hlines]
  dsimp only
  rw [hheaders]
  rfl

theorem exists_responseHead (h : (parseHttpResponse buffer peerClosed).status = .complete) :
    ∃ code terminator headers, ResponseHead buffer code terminator headers := by
  unfold parseHttpResponse at h
  cases hcrlf : findText crlf buffer with
  | none =>
    rw [hcrlf] at h
    dsimp only at h
    split_ifs at h <;> exact nomatch h
  | some statusLineEnd =>
    rw [hcrlf] at h
    dsimp only at h
    have hline : statusLineEnd + 2 ≤ kMaxHttpResponseStatusLineLength := by
      by_contra hlong
      rw [if_pos (not_le.1 hlong)] at h
      exact nomatch h
    rw [if_neg (not_lt.2 hline)] at h
    cases hstatus : parseStatusLine (buffer.take statusLineEnd) with
    | malformed | unsupportedVersion =>
      rw [hstatus] at h
      exact nomatch h
    | ok code =>
      rw [hstatus] at h
      dsimp only at h
      cases hterminator : findText headTerminator buffer with
      | none =>
        rw [hterminator] at h
        dsimp only at h
        split_ifs at h <;> exact nomatch h
      | some terminator =>
        rw [hterminator] at h
        dsimp only at h
        have hlimit : terminator + 4 ≤ kMaxHttpResponseHeaderBlockLength := by
          by_contra hlong
          rw [if_pos (not_le.1 hlong)] at h
          exact nomatch h
        rw [if_neg (not_lt.2 hlimit)] at h
        have hnul : (buffer.take (terminator + 4)).contains 0 = false := by
          rw [← Bool.not_eq_true]
          intro hnul
          rw [if_pos hnul] at h
          exact nomatch h
        rw [hnul, if_neg Bool.false_ne_true] at h
        cases hlines : headLines (buffer.take (terminator + 4)).length
            (buffer.take (terminator + 4)) with
        | none =>
          rw [hlines] at h
          exact nomatch h
        | some lines =>
          rw [hlines] at h
          dsimp only at h
          cases hheaders : readResponseHeaders {} (headerLines lines) with
          | none =>
            rw [hheaders] at h
            exact nomatch h
          | some headers =>
            obtain ⟨first, hle, hfirst⟩ := findText_start
              (show crlf <+: headTerminator from ⟨crlf, rfl⟩) hterminator
            rw [hcrlf] at hfirst
            exact ⟨code, terminator, headers,
              { statusLine := ⟨statusLineEnd, hcrlf, (Option.some.inj hfirst).le.trans hle,
                  hline, hstatus⟩
                terminated := hterminator
                limit := hlimit
                noNul := hnul
                lines := ⟨lines, hlines, hheaders⟩ }⟩

theorem ResponseHead.earlier (h : ResponseHead (buffer ++ more) code terminator headers)
    (hfits : terminator + 4 ≤ buffer.length) : ResponseHead buffer code terminator headers := by
  have hblock : (buffer ++ more).take (terminator + 4) = buffer.take (terminator + 4) :=
    List.take_append_of_le_length hfits
  obtain ⟨statusLineEnd, hcrlf, hle, hline, hstatus⟩ := h.statusLine
  rw [List.take_append_of_le_length (by omega)] at hstatus
  have hnul := h.noNul
  have hlines := h.lines
  rw [hblock] at hnul hlines
  exact
    { statusLine := ⟨statusLineEnd,
        findText_append_iff.2 ⟨hcrlf, by rw [show crlf.length = 2 from rfl]; omega⟩, hle, hline,
        hstatus⟩
      terminated := findText_append_iff.2 ⟨h.terminated, hfits⟩
      limit := h.limit
      noNul := hnul
      lines := hlines }

theorem ResponseHead.waits (h : ResponseHead (buffer ++ more) code terminator headers)
    (hshort : buffer.length < terminator + 4) :
    (parseHttpResponse buffer false).status = .incomplete := by
  obtain ⟨statusLineEnd, hcrlf, -, hline, hstatus⟩ := h.statusLine
  have hlimit := h.limit
  have hterminator : findText headTerminator buffer = none :=
    findText_eq_none_of_append h.terminated hshort
  unfold parseHttpResponse
  cases hfirst : findText crlf buffer with
  | none =>
    -- The status line that the whole begins with has not ended yet.
    have hshortLine : buffer.length < statusLineEnd + 2 := lt_of_findText_append hfirst hcrlf
    rw [if_neg (by omega), if_neg Bool.false_ne_true]
    rfl
  | some first =>
    obtain ⟨hfound, hle⟩ := findText_append_iff.1 hfirst
    rw [hcrlf] at hfound
    obtain rfl := Option.some.inj hfound
    rw [show crlf.length = 2 from rfl] at hle
    rw [List.take_append_of_le_length (by omega)] at hstatus
    dsimp only
    rw [if_neg (not_lt.2 hline), hstatus, hterminator, if_neg (by omega), if_neg Bool.false_ne_true]
    rfl

/-! ## The body -/

theorem completeResponse_complete_iff :
    (completeResponse headers code extra peerClosed).status = .complete ↔
      headers.hasTransferEncoding = false ∧ extra.length ≤ kMaxHttpResponseBodyLength ∧
      if headers.seenContentLength then
        headers.contentLengthOverflowed = false ∧ extra.length = headers.contentLength
      else peerClosed = true := by
  unfold completeResponse
  cases headers.hasTransferEncoding with
  | true => simp [reject]
  | false =>
    cases headers.seenContentLength with
    | true =>
      cases headers.contentLengthOverflowed with
      | true => simp [reject]
      | false =>
        simp only [Bool.false_eq_true, if_false, if_true, Bool.false_or, decide_eq_true_eq,
          true_and]
        split_ifs <;> simp [reject] <;> omega
    | false =>
      by_cases hlarge : extra.length > kMaxHttpResponseBodyLength
      · simp [hlarge, reject]
      · cases peerClosed with
        | true => simp [hlarge, not_lt.1 hlarge]
        | false => simp [hlarge, reject]

theorem completeResponse_eq
    (h : (completeResponse headers code extra peerClosed).status = .complete) :
    completeResponse headers code extra peerClosed =
      { status := .complete
        statusCode := some code
        body := extra
        contentLengthPresent := headers.seenContentLength } := by
  obtain ⟨hencoding, hlength, hrest⟩ := completeResponse_complete_iff.1 h
  rw [completeResponse, hencoding, if_neg Bool.false_ne_true]
  cases hseen : headers.seenContentLength with
  | true =>
    rw [hseen, if_pos rfl] at hrest
    rw [if_pos rfl, hrest.1, Bool.false_or, if_neg (by rw [decide_eq_true_eq]; omega),
      if_neg (by omega), if_neg (by omega)]
  | false =>
    rw [hseen, if_neg Bool.false_ne_true] at hrest
    rw [if_neg Bool.false_ne_true, if_neg (not_lt.2 hlength), hrest]
    rfl

theorem completeResponse_earlier (hmore : more ≠ [])
    (h : (completeResponse headers code (extra ++ more) peerClosed).status = .complete) :
    (completeResponse headers code extra false).status = .incomplete := by
  obtain ⟨hencoding, hlength, hrest⟩ := completeResponse_complete_iff.1 h
  have hmissing : extra.length < (extra ++ more).length := by
    rw [List.length_append]
    exact Nat.lt_add_of_pos_right (List.length_pos_iff.2 hmore)
  rw [completeResponse, hencoding, if_neg Bool.false_ne_true]
  cases hseen : headers.seenContentLength with
  | true =>
    rw [hseen, if_pos rfl] at hrest
    rw [if_pos rfl, hrest.1, Bool.false_or, if_neg (by rw [decide_eq_true_eq]; omega),
      if_neg (by omega), if_pos (by omega)]
    rfl
  | false =>
    rw [if_neg Bool.false_ne_true, if_neg (by omega)]
    rfl

/-! ## Responses -/

theorem parseHttpResponse_earlier (hmore : more ≠ [])
    (h : (parseHttpResponse (buffer ++ more) peerClosed).status = .complete) :
    (parseHttpResponse buffer false).status = .incomplete := by
  obtain ⟨code, terminator, headers, hhead⟩ := exists_responseHead h
  -- The head of the whole is either all there already, and then the body is short, or it is not.
  by_cases hfits : terminator + 4 ≤ buffer.length
  · rw [hhead.parse, List.drop_append_of_le_length hfits] at h
    rw [(hhead.earlier hfits).parse]
    exact completeResponse_earlier hmore h
  · exact hhead.waits (not_le.1 hfits)

theorem parseHttpResponse_closed (h : (parseHttpResponse buffer false).status = .complete) :
    parseHttpResponse buffer true = parseHttpResponse buffer false := by
  obtain ⟨code, terminator, headers, hhead⟩ := exists_responseHead h
  rw [hhead.parse] at h
  rw [hhead.parse, hhead.parse]
  obtain ⟨hencoding, hlength, hrest⟩ := completeResponse_complete_iff.1 h
  -- Without a Content-Length only the FIN ends the body.
  have hseen : headers.seenContentLength = true := by
    by_contra hunseen
    simp [if_neg hunseen] at hrest
  have hclosed : (completeResponse headers code (buffer.drop (terminator + 4)) true).status =
      .complete := by
    rw [if_pos hseen] at hrest
    exact completeResponse_complete_iff.2 ⟨hencoding, hlength, by rw [if_pos hseen]; exact hrest⟩
  rw [completeResponse_eq h, completeResponse_eq hclosed]

theorem parseHttpResponse_open (h : (parseHttpResponse buffer true).status = .complete) :
    (parseHttpResponse buffer false).status = .complete ∨
      (parseHttpResponse buffer false).status = .incomplete := by
  obtain ⟨code, terminator, headers, hhead⟩ := exists_responseHead h
  rw [hhead.parse] at h
  rw [hhead.parse]
  obtain ⟨hencoding, hlength, hrest⟩ := completeResponse_complete_iff.1 h
  cases hseen : headers.seenContentLength with
  | true =>
    rw [hseen] at hrest
    exact .inl (completeResponse_complete_iff.2 ⟨hencoding, hlength, by rw [hseen]; exact hrest⟩)
  | false =>
    rw [completeResponse, hencoding, hseen, if_neg Bool.false_ne_true, if_neg Bool.false_ne_true,
      if_neg (not_lt.2 hlength)]
    exact .inr rfl

theorem parseHttpResponse_true_ne_incomplete :
    (parseHttpResponse buffer true).status ≠ .incomplete := by
  have hbody : ∀ headers code extra,
      (completeResponse headers code extra true).status ≠ .incomplete := by
    intro headers code extra
    unfold completeResponse
    split_ifs <;> simp_all [reject]
  unfold parseHttpResponse
  dsimp only
  repeat' split
  all_goals first | exact hbody _ _ _ | contradiction | exact nofun

theorem parseHttpResponse_complete_length
    (h : (parseHttpResponse buffer peerClosed).status = .complete) :
    buffer.length ≤ kMaxHttpResponseHeaderBlockLength + kMaxHttpResponseBodyLength := by
  obtain ⟨code, terminator, headers, hhead⟩ := exists_responseHead h
  rw [hhead.parse] at h
  have hbody := (completeResponse_complete_iff.1 h).2.1
  rw [List.length_drop] at hbody
  have hlimit := hhead.limit
  omega

end

end Wirestack
