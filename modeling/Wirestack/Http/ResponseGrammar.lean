import Wirestack.Http.Incremental
import Wirestack.Http.Lines

set_option autoImplicit false

/-! # The grammar of responses

`parseHttpResponse` returns a complete response exactly on a status line `HTTP/1.0 code reason`, header
lines, an empty line and a body. The body is as long as the one Content-Length says, or, without one,
all there is when the peer has closed. The length is read digit by digit under a guard, so that the
number read is the one written or is reported as too large, however many digits there are. -/

namespace Wirestack

open List

variable {v : ℕ} {digits : List Byte}

/-! ## The length as a number -/

theorem toNat_sub_zero : ∀ c : Byte, isDigit c = true → (c - 0x30).toNat = digitValue c :=
  forall_byte (by decide +kernel)

theorem readContentLength_fits (hfits : decimalFrom v digits < 2 ^ 64) :
    readContentLength v digits = (decimalFrom v digits, false) := by
  induction digits generalizing v with
  | nil => rfl
  | cons c digits ih =>
    have hle : 10 * v + digitValue c < 2 ^ 64 := lt_of_le_of_lt (le_decimalFrom _ digits) hfits
    rw [readContentLength, if_neg (by omega), Nat.mul_comm]
    exact ih hfits

theorem readContentLength_overflows (hdigits : ∀ c ∈ digits, isDigit c = true) (hv : v < 2 ^ 64)
    (hlarge : 2 ^ 64 ≤ decimalFrom v digits) : (readContentLength v digits).2 = true := by
  induction digits generalizing v with
  | nil => exact absurd hlarge (not_le.2 hv)
  | cons c digits ih =>
    obtain ⟨hdigit, hdigits⟩ := forall_mem_cons.1 hdigits
    have hnine := digitValue_le_nine c hdigit
    rw [readContentLength]
    split_ifs with hguard
    · rfl
    · rw [Nat.mul_comm]
      exact ih hdigits (by omega) hlarge

/-- The loop over the digits in the source's own type. -/
def readContentLength64 : UInt64 → List Byte → UInt64 × Bool
  | v, [] => (v, false)
  | v, c :: rest =>
    let d := (c - 0x30).toUInt64
    if v > (0xffffffffffffffff - d) / 10 then (v, true)
    else readContentLength64 (v * 10 + d) rest

theorem readContentLength64_eq {v : UInt64} (hdigits : ∀ c ∈ digits, isDigit c = true) :
    ((readContentLength64 v digits).1.toNat, (readContentLength64 v digits).2) =
      readContentLength v.toNat digits := by
  induction digits generalizing v with
  | nil => rfl
  | cons c digits ih =>
    obtain ⟨hdigit, hdigits⟩ := forall_mem_cons.1 hdigits
    have hnine := digitValue_le_nine c hdigit
    have hd : (c - 0x30).toUInt64.toNat = digitValue c := by
      rw [UInt8.toNat_toUInt64, toNat_sub_zero c hdigit]
    have hroom : (0xffffffffffffffff - (c - 0x30).toUInt64).toNat = 2 ^ 64 - 1 - digitValue c := by
      have hle : (c - 0x30).toUInt64 ≤ 0xffffffffffffffff := by
        rw [UInt64.le_iff_toNat_le, hd]
        exact le_trans hnine (by decide)
      rw [UInt64.toNat_sub_of_le _ _ hle, hd]
      rfl
    have hguard : v > (0xffffffffffffffff - (c - 0x30).toUInt64) / 10 ↔
        v.toNat > (2 ^ 64 - 1 - digitValue c) / 10 := by
      rw [gt_iff_lt, UInt64.lt_iff_toNat_lt, UInt64.toNat_div, hroom]
      rfl
    rw [readContentLength64, readContentLength]
    by_cases hlarge : v.toNat > (2 ^ 64 - 1 - digitValue c) / 10
    · rw [if_pos (hguard.2 hlarge), if_pos hlarge]
    · have hnext : (v * 10 + (c - 0x30).toUInt64).toNat = v.toNat * 10 + digitValue c := by
        rw [UInt64.toNat_add, UInt64.toNat_mul, hd, show (10 : UInt64).toNat = 10 from rfl]
        omega
      rw [if_neg (fun h => hlarge (hguard.1 h)), if_neg hlarge, ← hnext]
      exact ih hdigits

/-! ## The status line -/

/-- A status line: a code from 200 to 599 in three digits, and a reason without control bytes other
    than tabs. -/
structure StatusLine where
  digits : List Byte
  reason : List Byte
  three_digits : digits.length = 3
  all_digits : ∀ c ∈ digits, isDigit c = true
  code_range : 200 ≤ decimal digits ∧ decimal digits ≤ 599
  reason_clean : ∀ c ∈ reason, isForbiddenInValue c = false

variable {line : StatusLine}

def StatusLine.code (line : StatusLine) : ℕ := decimal line.digits

def StatusLine.bytes (line : StatusLine) : List Byte :=
  ascii "HTTP/1.0 " ++ line.digits ++ 0x20 :: line.reason

theorem decimal_three (hundreds tens ones : Byte) : decimal [hundreds, tens, ones] =
    digitValue hundreds * 100 + digitValue tens * 10 + digitValue ones := by
  show 10 * (10 * (10 * 0 + digitValue hundreds) + digitValue tens) + digitValue ones = _
  omega

theorem parseStatusLine_bytes (line : StatusLine) : parseStatusLine line.bytes = .ok line.code := by
  obtain ⟨digits, reason, hthree, hdigits, hrange, hclean⟩ := line
  obtain ⟨hundreds, tens, ones, rfl⟩ := length_eq_three.1 hthree
  have hspace : (0x20 : Byte) ∉ [hundreds, tens, ones] := fun hmem =>
    absurd (hdigits _ hmem) (by decide)
  have hfirst : findText [0x20]
      (ascii "HTTP/1.0" ++ 0x20 :: ([hundreds, tens, ones] ++ 0x20 :: reason)) =
      some (ascii "HTTP/1.0").length :=
    findText_byte_eq_some_iff.2 ⟨ascii "HTTP/1.0", _, rfl, by decide, rfl⟩
  have hsecond : findText [0x20] ([hundreds, tens, ones] ++ 0x20 :: reason) =
      some [hundreds, tens, ones].length :=
    findText_byte_eq_some_iff.2 ⟨_, _, rfl, hspace, rfl⟩
  have hhundreds : ¬(([hundreds, tens, ones] ++ 0x20 :: reason).isEmpty ||
      ([hundreds, tens, ones] ++ 0x20 :: reason).head? == some 0x20) = true := by
    show ¬(some hundreds == some 0x20) = true
    rw [beq_iff_eq, Option.some_inj]
    exact fun h => hspace (h ▸ mem_cons_self)
  have hall : isAllDigits [hundreds, tens, ones] = true :=
    isAllDigits_iff.2 ⟨cons_ne_nil _ _, hdigits⟩
  show parseStatusLine
    (ascii "HTTP/1.0" ++ 0x20 :: ([hundreds, tens, ones] ++ 0x20 :: reason)) = _
  rw [parseStatusLine, hfirst]
  dsimp only
  rw [take_left, drop_separator, if_neg (by decide), if_neg (by decide), if_neg hhundreds, hsecond]
  dsimp only
  rw [take_left, drop_separator]
  dsimp only
  rw [← decimal_three, hall, if_neg (by decide), if_neg (by omega), if_neg (by simpa using hclean)]
  rfl

theorem parseStatusLine_eq_ok {text : List Byte} {code : ℕ} (h : parseStatusLine text = .ok code) :
    ∃ line : StatusLine, text = line.bytes ∧ code = line.code := by
  unfold parseStatusLine at h
  cases hfirst : findText [0x20] text with
  | none =>
    simp [hfirst] at h
  | some firstSpace =>
    rw [hfirst] at h
    obtain ⟨version, rest, rfl, -, rfl⟩ := findText_byte_eq_some_iff.1 hfirst
    dsimp only at h
    rw [take_left, drop_separator] at h
    split_ifs at h with hvalid hversion hstart
    rw [bne_iff_ne, not_not] at hversion
    cases hsecond : findText [0x20] rest with
    | none =>
      simp [hsecond] at h
    | some secondSpace =>
      rw [hsecond] at h
      obtain ⟨digits, reason, rfl, -, rfl⟩ := findText_byte_eq_some_iff.1 hsecond
      dsimp only at h
      rw [take_left, drop_separator] at h
      split at h
      · rename_i hundreds tens ones
        rw [← decimal_three] at h
        split_ifs at h with hdigits hrange hclean
        cases h
        rw [Bool.not_eq_true', Bool.not_eq_false] at hdigits
        rw [not_or, not_lt, not_lt] at hrange
        rw [Bool.not_eq_true, any_eq_false] at hclean
        refine ⟨⟨[hundreds, tens, ones], reason, rfl, (isAllDigits_iff.1 hdigits).2, hrange,
          fun c hc => by simpa using hclean c hc⟩, ?_, rfl⟩
        rw [hversion]
        rfl
      · exact nomatch h

theorem StatusLine.not_mem_bytes (line : StatusLine) {b : Byte} (hversion : b ∉ ascii "HTTP/1.0 ")
    (hspace : b ≠ 0x20) (hdigit : isDigit b = false) (hreason : isForbiddenInValue b = true) :
    b ∉ line.bytes := by
  rw [StatusLine.bytes, mem_append, mem_append, mem_cons, not_or, not_or, not_or]
  refine ⟨⟨hversion, fun hmem => ?_⟩, hspace, fun hmem => ?_⟩
  · simp [line.all_digits b hmem] at hdigit
  · simp [line.reason_clean b hmem] at hreason

theorem StatusLine.headLine (line : StatusLine) : HeadLine line.bytes where
  ne_nil := append_ne_nil_of_right_ne_nil _ (cons_ne_nil _ _)
  no_cr := line.not_mem_bytes (by decide) (by decide) (by decide) (by decide)
  no_lf := line.not_mem_bytes (by decide) (by decide) (by decide) (by decide)

/-! ## The header loop -/

/-- The value without the blanks around it. -/
def HeaderLine.trimmed (header : HeaderLine) : List Byte :=
  trimTrailingOws (header.value.dropWhile isBlank)

theorem any_forbidden_trimTrailingOws (value : List Byte) :
    (trimTrailingOws value).any isForbiddenInValue = value.any isForbiddenInValue := by
  rw [trimTrailingOws, rdropWhile, any_reverse, any_forbidden_dropWhile, any_reverse]

/-- What the loop has found after the headers. A length counts once, and only in digits. -/
def ResponseHeaders.after (found : ResponseHeaders) (headers : List HeaderLine) :
    Option ResponseHeaders :=
  let encoded := found.hasTransferEncoding || headers.any (HeaderLine.isNamed · "transfer-encoding")
  match headers.filter (HeaderLine.isNamed · "content-length") with
  | [] => some { found with hasTransferEncoding := encoded }
  | [header] =>
    if found.seenContentLength || !isAllDigits header.trimmed then none
    else
      some
        { seenContentLength := true
          hasTransferEncoding := encoded
          contentLength := (readContentLength 0 header.trimmed).1
          contentLengthOverflowed := (readContentLength 0 header.trimmed).2 }
  | _ => none

theorem HeaderLine.isNamed_length_of_encoding {header : HeaderLine}
    (h : header.isNamed "transfer-encoding" = true) : header.isNamed "content-length" = false := by
  rw [HeaderLine.isNamed, beq_iff_eq] at h
  rw [HeaderLine.isNamed, h]
  decide

theorem readResponseHeaders_bytes (found : ResponseHeaders) (header : HeaderLine)
    (rest : List (List Byte)) : readResponseHeaders found (header.bytes :: rest) =
      if header.isNamed "transfer-encoding" then
        readResponseHeaders { found with hasTransferEncoding := true } rest
      else if header.isNamed "content-length" then
        if found.seenContentLength then none
        else if !isAllDigits header.trimmed then none
        else
          readResponseHeaders { found with
              seenContentLength := true
              contentLength := (readContentLength 0 header.trimmed).1
              contentLengthOverflowed := (readContentLength 0 header.trimmed).2 } rest
      else readResponseHeaders found rest := by
  rw [readResponseHeaders, headerField_bytes any_forbidden_trimTrailingOws]
  rfl

theorem readResponseHeaders_map (found : ResponseHeaders) (headers : List HeaderLine) :
    readResponseHeaders found (headers.map HeaderLine.bytes) = found.after headers := by
  induction headers generalizing found with
  | nil => simp [readResponseHeaders, ResponseHeaders.after]
  | cons header headers ih =>
    rw [map_cons, readResponseHeaders_bytes]
    cases hencoding : header.isNamed "transfer-encoding" with
    | true =>
      have hlength := HeaderLine.isNamed_length_of_encoding hencoding
      rw [if_pos rfl, ih]
      simp [ResponseHeaders.after, hencoding, hlength]
    | false =>
      cases hlength : header.isNamed "content-length" with
      | false =>
        rw [if_neg Bool.false_ne_true, if_neg Bool.false_ne_true, ih]
        simp [ResponseHeaders.after, hencoding, hlength]
      | true =>
        rw [if_neg Bool.false_ne_true, if_pos rfl, ih]
        simp only [ResponseHeaders.after, hencoding, hlength, filter_cons_of_pos, any_cons,
          Bool.false_or, Bool.true_or, if_true]
        -- a second length is refused whether or not this one was
        cases headers.filter (HeaderLine.isNamed · "content-length") with
        | nil => cases found.seenContentLength <;> simp
        | cons second others => cases others <;> simp

theorem headerLines_of_readResponseHeaders {found result : ResponseHeaders}
    {lines : List (List Byte)} (h : readResponseHeaders found lines = some result) :
    ∃ headers : List HeaderLine, lines = headers.map HeaderLine.bytes := by
  induction lines generalizing found with
  | nil => exact ⟨[], rfl⟩
  | cons line lines ih =>
    have hline : ∃ header : HeaderLine, line = header.bytes := by
      rw [readResponseHeaders] at h
      cases hfield : headerField trimTrailingOws line with
      | none =>
        simp [hfield] at h
      | some field =>
        obtain ⟨header, hline, -⟩ := headerField_eq_some any_forbidden_trimTrailingOws hfield
        exact ⟨header, hline⟩
    obtain ⟨header, rfl⟩ := hline
    obtain ⟨headers, rfl⟩ : ∃ headers : List HeaderLine, lines = headers.map HeaderLine.bytes := by
      rw [readResponseHeaders_bytes] at h
      split_ifs at h
      · exact ih h
      · exact ih h
      · exact ih h
    exact ⟨header :: headers, rfl⟩

/-! ## The head -/

section

variable {buffer : List Byte} {code terminator : ℕ} {found : ResponseHeaders}

theorem responseHead_headBytes {headers : List HeaderLine}
    (hline : line.bytes.length + 2 ≤ kMaxHttpResponseStatusLineLength)
    (hblock : (headBytes line.bytes headers).length ≤ kMaxHttpResponseHeaderBlockLength)
    (hfound : ResponseHeaders.after {} headers = some found) (body : List Byte) :
    ResponseHead (headBytes line.bytes headers ++ body) line.code
      ((headBytes line.bytes headers).length - 4) found := by
  have hfour := length_first_add_four_le line.bytes headers
  have hend : (headBytes line.bytes headers).length - 4 + 4 =
      (headBytes line.bytes headers).length := Nat.sub_add_cancel (by omega)
  have hstatus : (headBytes line.bytes headers ++ body).take line.bytes.length = line.bytes := by
    rw [headBytes_append, joinLines_cons, append_assoc, take_left]
  have hlines := @headLines_headBytes _ headers line.headLine [] _ le_rfl
  rw [append_nil] at hlines
  refine
    { statusLine := ⟨line.bytes.length, findText_crlf_headBytes line.headLine body, by omega, hline,
        ?_⟩
      terminated := findText_terminator_headBytes line.headLine body
      limit := hend.trans_le hblock
      noNul := ?_
      lines := ⟨line.bytes :: headers.map HeaderLine.bytes ++ [[]], ?_, ?_⟩ }
  · rw [hstatus, parseStatusLine_bytes]
  · rw [hend, take_left, ← Bool.not_eq_true, contains_iff_mem]
    exact zero_not_mem_headBytes
      (line.not_mem_bytes (by decide) (by decide) (by decide) (by decide))
  · rw [hend, take_left, hlines]
  · rw [headerLines_append_nil, readResponseHeaders_map, hfound]

theorem ResponseHead.take_eq (h : ResponseHead buffer code terminator found) :
    ∃ (line : StatusLine) (headers : List HeaderLine),
      buffer.take (terminator + 4) = headBytes line.bytes headers ∧ line.code = code ∧
      line.bytes.length + 2 ≤ kMaxHttpResponseStatusLineLength ∧
      ResponseHeaders.after {} headers = some found := by
  obtain ⟨statusLineEnd, hcrlf, -, hline, hstatus⟩ := h.statusLine
  obtain ⟨result, hlines, hheaders⟩ := h.lines
  obtain ⟨line, hbytes, rfl⟩ := parseStatusLine_eq_ok hstatus
  obtain ⟨lines, rest, hall, rfl, hblock⟩ := headLines_eq_some hlines
  have hbuffer := take_append_drop (terminator + 4) buffer
  rw [hblock, append_assoc] at hbuffer
  cases lines with
  | nil =>
    -- the block would start with its empty line, and the status line would be empty
    have hzero : findText crlf buffer = some 0 := by
      rw [← hbuffer]
      exact findText_cons_start (prefix_append crlf _)
    rw [hcrlf, Option.some_inj] at hzero
    rw [hzero] at hbytes
    exact absurd hbytes.symm line.headLine.ne_nil
  | cons first lines =>
    have hfirst : first = line.bytes := by
      have hfound := @findText_crlf_joinLines first lines (hall first mem_cons_self).no_cr
        ((crlf ++ rest) ++ buffer.drop (terminator + 4))
      rw [hbuffer, hcrlf, Option.some_inj] at hfound
      rw [← hbytes, hfound, ← hbuffer, joinLines_cons, append_assoc, take_left]
    rw [headerLines_append_nil] at hheaders
    obtain ⟨headers, rfl⟩ := headerLines_of_readResponseHeaders hheaders
    rw [readResponseHeaders_map] at hheaders
    rw [hfirst, ← headBytes_append] at hblock
    have hlength : statusLineEnd = line.bytes.length := by
      rw [← hbytes, length_take_of_le]
      have := findText_le hcrlf
      omega
    exact ⟨line, headers, take_eq_headBytes line.headLine h.terminated hblock, rfl,
      hlength ▸ hline, hheaders⟩

end

/-! ## The body -/

/-- What says where the body ends: its length, written once and in digits, or the peer's close. -/
def BodyDelimited (headers : List HeaderLine) (body : List Byte) (peerClosed : Bool) : Prop :=
  match headers.filter (HeaderLine.isNamed · "content-length") with
  | [] => peerClosed = true
  | [header] => isAllDigits header.trimmed = true ∧ decimal header.trimmed = body.length
  | _ => False

section

variable {headers : List HeaderLine} {code : ℕ} {body : List Byte} {peerClosed : Bool}

theorem contentLength_eq_iff {n : ℕ} (hdigits : isAllDigits digits = true)
    (hn : n ≤ kMaxHttpResponseBodyLength) :
    ((readContentLength 0 digits).2 = false ∧ n = (readContentLength 0 digits).1) ↔
      decimal digits = n := by
  have hlimit : kMaxHttpResponseBodyLength < 2 ^ 64 := by decide
  by_cases hfits : decimal digits < 2 ^ 64
  · rw [readContentLength_fits hfits]
    exact ⟨fun h => h.2.symm, fun h => ⟨rfl, h.symm⟩⟩
  · have hoverflow := readContentLength_overflows (isAllDigits_iff.1 hdigits).2 (by decide)
      (not_lt.1 hfits)
    rw [hoverflow]
    exact iff_of_false (fun h => nomatch h.1) (by omega)

theorem after_complete_iff : (∃ found, ResponseHeaders.after {} headers = some found ∧
        (completeResponse found code body peerClosed).status = .complete) ↔
      (∀ header ∈ headers, header.isNamed "transfer-encoding" = false) ∧
      BodyDelimited headers body peerClosed ∧ body.length ≤ kMaxHttpResponseBodyLength := by
  have hencodings : headers.any (HeaderLine.isNamed · "transfer-encoding") = false ↔
      ∀ header ∈ headers, header.isNamed "transfer-encoding" = false := by
    simp only [any_eq_false, Bool.not_eq_true]
  rw [← hencodings]
  unfold ResponseHeaders.after BodyDelimited
  rw [Bool.false_or]
  cases headers.filter (HeaderLine.isNamed · "content-length") with
  | nil => simp [completeResponse_complete_iff, and_comm]
  | cons header others =>
    cases others with
    | cons second others => simp
    | nil =>
      cases hdigits : isAllDigits header.trimmed with
      | false => simp [hdigits]
      | true =>
        simp only [hdigits, Bool.not_true, Bool.or_false, Bool.false_eq_true, if_false,
          Option.some_inj, exists_eq_left', completeResponse_complete_iff, if_true, true_and]
        refine and_congr_right fun _ => ?_
        rw [and_comm]
        exact and_congr_left fun hlength => contentLength_eq_iff hdigits hlength

theorem parseHttpResponse_headBytes
    (hline : line.bytes.length + 2 ≤ kMaxHttpResponseStatusLineLength)
    (hblock : (headBytes line.bytes headers).length ≤ kMaxHttpResponseHeaderBlockLength)
    (hencoding : ∀ header ∈ headers, header.isNamed "transfer-encoding" = false)
    (hdelimited : BodyDelimited headers body peerClosed)
    (hbody : body.length ≤ kMaxHttpResponseBodyLength) :
    (parseHttpResponse (headBytes line.bytes headers ++ body) peerClosed).status = .complete ∧
      (parseHttpResponse (headBytes line.bytes headers ++ body) peerClosed).statusCode =
        some line.code ∧
      (parseHttpResponse (headBytes line.bytes headers ++ body) peerClosed).body = body := by
  obtain ⟨found, hfound, hcomplete⟩ :=
    (@after_complete_iff headers line.code body peerClosed).2 ⟨hencoding, hdelimited, hbody⟩
  have hfour := length_first_add_four_le line.bytes headers
  rw [(responseHead_headBytes hline hblock hfound body).parse, Nat.sub_add_cancel (by omega),
    drop_left]
  rw [completeResponse_eq hcomplete]
  exact ⟨rfl, rfl, rfl⟩

end

/-- **`parseHttpResponse` completes exactly on its grammar**, and the loop that reads the length in
    64 bits reads any digits without wrapping. -/
theorem parseHttpResponse_grammar (bytes body : List Byte) (code : ℕ) (peerClosed : Bool) :
    (((parseHttpResponse bytes peerClosed).status = .complete ∧
        (parseHttpResponse bytes peerClosed).statusCode = some code ∧
        (parseHttpResponse bytes peerClosed).body = body) ↔
      ∃ (line : StatusLine) (headers : List HeaderLine),
        bytes = headBytes line.bytes headers ++ body ∧ line.code = code ∧
        line.bytes.length + 2 ≤ kMaxHttpResponseStatusLineLength ∧
        (headBytes line.bytes headers).length ≤ kMaxHttpResponseHeaderBlockLength ∧
        (∀ header ∈ headers, header.isNamed "transfer-encoding" = false) ∧
        BodyDelimited headers body peerClosed ∧ body.length ≤ kMaxHttpResponseBodyLength) ∧
    ∀ digits : List Byte, isAllDigits digits = true →
      ((readContentLength64 0 digits).1.toNat, (readContentLength64 0 digits).2) =
        readContentLength 0 digits ∧
      ((readContentLength64 0 digits).2 = true ↔ 2 ^ 64 ≤ decimal digits) ∧
      ((readContentLength64 0 digits).2 = false →
        (readContentLength64 0 digits).1.toNat = decimal digits) := by
  refine ⟨⟨?_, ?_⟩, ?_⟩
  · rintro ⟨hcomplete, hcode, hbody⟩
    obtain ⟨read, terminator, found, hhead⟩ := exists_responseHead hcomplete
    obtain ⟨line, headers, hblock, rfl, hline, hfound⟩ := hhead.take_eq
    rw [hhead.parse] at hcomplete hcode hbody
    rw [completeResponse_eq hcomplete, Option.some_inj] at hcode
    rw [completeResponse_eq hcomplete] at hbody
    dsimp only at hbody
    obtain ⟨hencoding, hdelimited, hlength⟩ := after_complete_iff.1 ⟨found, hfound, hcomplete⟩
    rw [hbody] at hdelimited hlength
    refine ⟨line, headers, ?_, hcode, hline, ?_, hencoding, hdelimited, hlength⟩
    · rw [← hblock, ← hbody, take_append_drop]
    · rw [← hblock]
      exact le_trans (length_take_le _ _) hhead.limit
  · rintro ⟨line, headers, rfl, rfl, hline, hblock, hencoding, hdelimited, hlength⟩
    exact parseHttpResponse_headBytes hline hblock hencoding hdelimited hlength
  · intro digits hdigits
    have hall := (isAllDigits_iff.1 hdigits).2
    have hexact : ((readContentLength64 0 digits).1.toNat, (readContentLength64 0 digits).2) =
        readContentLength 0 digits := readContentLength64_eq hall
    refine ⟨hexact, ?_⟩
    by_cases hfits : decimal digits < 2 ^ 64
    · rw [readContentLength_fits hfits, Prod.mk.injEq] at hexact
      rw [hexact.2, hexact.1]
      exact ⟨iff_of_false Bool.false_ne_true (not_le.2 hfits), fun _ => rfl⟩
    · have hoverflow := readContentLength_overflows hall (by decide) (not_lt.1 hfits)
      rw [← hexact] at hoverflow
      dsimp only at hoverflow
      rw [hoverflow]
      exact ⟨iff_of_true rfl (not_lt.1 hfits), nofun⟩

end Wirestack
