import Wirestack.Http.Lines
import Wirestack.Http.Verdict

set_option autoImplicit false

/-! # The grammar of requests

`parseHttpRequest` returns a complete request exactly on a request line `GET target HTTP/1.0`, header
lines without a body, and an empty line that ends the bytes. Everything else that could be read in more
than one way (a bare CR or LF, a folded line, a NUL, a transfer encoding, a second length, bytes behind
the head) is refused. -/

namespace Wirestack

open List

variable {header : HeaderLine} {rest : List (List Byte)} {line : List Byte} {limit : ℕ}

variable {seen : Bool} {headers : List HeaderLine} {target : List Byte}

/-! ## Requests -/

def requestLine (target : List Byte) : List Byte := ascii "GET " ++ target ++ ascii " HTTP/1.0"

/-- The bytes of a request. -/
def requestBytes (target : List Byte) (headers : List HeaderLine) : List Byte :=
  headBytes (requestLine target) headers

/-- The headers announce no body: no transfer encoding, and a length at most so many times, which is
    then zero. -/
structure Bodiless (limit : ℕ) (headers : List HeaderLine) : Prop where
  noEncoding : ∀ header ∈ headers, header.isNamed "transfer-encoding" = false
  fewLengths : headers.countP (HeaderLine.isNamed · "content-length") ≤ limit
  zeroLength : ∀ header ∈ headers, header.isNamed "content-length" = true →
    header.value.dropWhile isBlank = ascii "0"

/-! ## The header loop -/

theorem acceptsHeaders_bytes : acceptsHeaders seen (header.bytes :: rest) = true ↔
      header.isNamed "transfer-encoding" = false ∧
      if header.isNamed "content-length" then
        seen = false ∧ header.value.dropWhile isBlank = ascii "0" ∧ acceptsHeaders true rest = true
      else acceptsHeaders seen rest = true := by
  rw [acceptsHeaders, @headerField_bytes id (fun _ => rfl)]
  show (if header.isNamed "transfer-encoding" then false
    else if header.isNamed "content-length" then
      if seen then false
      else if header.value.dropWhile isBlank != ascii "0" then false
      else acceptsHeaders true rest
    else acceptsHeaders seen rest) = true ↔ _
  cases header.isNamed "transfer-encoding" with
  | true => simp
  | false =>
    cases header.isNamed "content-length" with
    | false => simp
    | true =>
      cases seen with
      | true => simp
      | false =>
        by_cases hzero : header.value.dropWhile isBlank = ascii "0"
        · simp [hzero]
        · simp [hzero]

theorem headerLine_of_acceptsHeaders (h : acceptsHeaders seen (line :: rest) = true) :
    ∃ header : HeaderLine, line = header.bytes := by
  rw [acceptsHeaders] at h
  cases hfield : headerField id line with
  | none =>
    simp [hfield] at h
  | some field =>
    obtain ⟨header, hline, -⟩ := headerField_eq_some (fun _ => rfl) hfield
    exact ⟨header, hline⟩

theorem bodiless_cons_iff :
    Bodiless limit (header :: headers) ↔ header.isNamed "transfer-encoding" = false ∧
      if header.isNamed "content-length" then
        1 ≤ limit ∧ header.value.dropWhile isBlank = ascii "0" ∧ Bodiless (limit - 1) headers
      else Bodiless limit headers := by
  constructor
  · rintro ⟨hencoding, hlengths, hzero⟩
    obtain ⟨hencoding, hencodings⟩ := forall_mem_cons.1 hencoding
    obtain ⟨hzero, hzeros⟩ := forall_mem_cons.1 hzero
    rw [countP_cons] at hlengths
    refine ⟨hencoding, ?_⟩
    split_ifs at hlengths ⊢ with hlength
    · exact ⟨by omega, hzero hlength, hencodings, by omega, hzeros⟩
    · exact ⟨hencodings, hlengths, hzeros⟩
  · rintro ⟨hencoding, h⟩
    split_ifs at h with hlength
    · obtain ⟨hlimit, hzero, h⟩ := h
      have hlengths := h.fewLengths
      refine ⟨forall_mem_cons.2 ⟨hencoding, h.noEncoding⟩, ?_,
        forall_mem_cons.2 ⟨fun _ => hzero, h.zeroLength⟩⟩
      rw [countP_cons, if_pos hlength]
      omega
    · refine ⟨forall_mem_cons.2 ⟨hencoding, h.noEncoding⟩, ?_,
        forall_mem_cons.2 ⟨fun hnamed => absurd hnamed hlength, h.zeroLength⟩⟩
      rw [countP_cons, if_neg hlength]
      exact h.fewLengths

theorem bodiless_of_silent
    (h : ∀ header ∈ headers, header.isNamed "transfer-encoding" = false ∧ header.isNamed
      "content-length" = false) : Bodiless limit headers where
  noEncoding header hheader := (h header hheader).1
  fewLengths := by
    rw [countP_eq_zero.2 fun header hheader => by rw [(h header hheader).2]; decide]
    exact Nat.zero_le limit
  zeroLength header hheader hnamed := by
    simp [(h header hheader).2] at hnamed

theorem acceptsHeaders_map_iff : acceptsHeaders seen (headers.map HeaderLine.bytes) = true ↔
      Bodiless (if seen then 0 else 1) headers := by
  induction headers generalizing seen with
  | nil => exact iff_of_true rfl ⟨by simp, by simp, by simp⟩
  | cons header headers ih =>
    rw [map_cons, acceptsHeaders_bytes, bodiless_cons_iff, ih, ih]
    cases seen with
    | true | false => simp

theorem headerLines_of_acceptsHeaders {lines : List (List Byte)}
    (h : acceptsHeaders seen lines = true) :
    ∃ headers : List HeaderLine, lines = headers.map HeaderLine.bytes := by
  induction lines generalizing seen with
  | nil => exact ⟨[], rfl⟩
  | cons line lines ih =>
    obtain ⟨header, rfl⟩ := headerLine_of_acceptsHeaders h
    obtain ⟨-, h⟩ := acceptsHeaders_bytes.1 h
    obtain ⟨headers, rfl⟩ : ∃ headers : List HeaderLine, lines = headers.map HeaderLine.bytes := by
      split_ifs at h
      · exact ih h.2.2
      · exact ih h
    exact ⟨header :: headers, rfl⟩

/-! ## The head -/

/-- A target starts with a slash and has neither a space nor a control byte in it. -/
structure ValidTarget (target : List Byte) : Prop where
  slash : target.head? = some 0x2f
  clean : ∀ c ∈ target, c ≠ 0x20 ∧ isControlByte c = false

theorem isValidTarget_iff : isValidTarget target = true ↔ ValidTarget target := by
  rw [isValidTarget, Bool.and_eq_true, beq_iff_eq, Bool.not_eq_true', any_eq_false]
  constructor
  · rintro ⟨hslash, hclean⟩
    exact ⟨hslash, fun c hc => by simpa using hclean c hc⟩
  · rintro ⟨hslash, hclean⟩
    exact ⟨hslash, fun c hc => by simpa using hclean c hc⟩

theorem requestLine_eq_intercalate (target : List Byte) :
    requestLine target = [0x20].intercalate [ascii "GET", target, ascii "HTTP/1.0"] := by
  have hfront : ascii "GET " = ascii "GET" ++ [0x20] := by decide
  have hback : ascii " HTTP/1.0" = [0x20] ++ ascii "HTTP/1.0" := by decide
  rw [intercalate_cons_cons, intercalate_cons_cons, intercalate_singleton, requestLine,
    hfront, hback]
  simp only [append_assoc]

theorem splitExact_requestLine (h : ValidTarget target) :
    splitExact (requestLine target) 0x20 3 = [ascii "GET", target, ascii "HTTP/1.0"] := by
  have hspace : ∀ field ∈ [ascii "GET", target, ascii "HTTP/1.0"], (0x20 : Byte) ∉ field := by
    intro field hfield
    simp only [mem_cons, not_mem_nil, or_false] at hfield
    obtain rfl | rfl | rfl := hfield
    · decide
    · exact fun hmem => (h.clean _ hmem).1 rfl
    · decide
  have hne : target.isEmpty = false := by
    rw [isEmpty_eq_false_iff]
    intro hnil
    have hslash := h.slash
    simp [hnil] at hslash
  have hfields : (requestLine target).splitOn 0x20 = [ascii "GET", target, ascii "HTTP/1.0"] := by
    rw [requestLine_eq_intercalate]
    exact splitOn_intercalate 0x20 hspace (cons_ne_nil _ _)
  rw [splitExact, hfields]
  rw [if_neg (show ¬[ascii "GET", target, ascii "HTTP/1.0"].length ≠ 3 from not_not.2 rfl), if_neg]
  show ¬(false || (target.isEmpty || (false || false))) = true
  rw [hne]
  decide

theorem eq_requestLine (h : splitExact line 0x20 3 = [ascii "GET", target, ascii "HTTP/1.0"]) :
    line = requestLine target := by
  unfold splitExact at h
  dsimp only at h
  split_ifs at h
  rw [requestLine_eq_intercalate, ← h, intercalate_splitOn]

theorem ValidTarget.not_mem_requestLine (h : ValidTarget target) {b : Byte}
    (hcontrol : isControlByte b = true) (hfront : b ∉ ascii "GET ") (hback : b ∉ ascii " HTTP/1.0") :
    b ∉ requestLine target := by
  rw [requestLine, mem_append, mem_append, not_or, not_or]
  refine ⟨⟨hfront, fun hmem => ?_⟩, hback⟩
  simp [(h.clean b hmem).2] at hcontrol

theorem ValidTarget.headLine (h : ValidTarget target) : HeadLine (requestLine target) where
  ne_nil := append_ne_nil_of_right_ne_nil _ (cons_ne_nil _ _)
  no_cr := h.not_mem_requestLine (by decide) (by decide) (by decide)
  no_lf := h.not_mem_requestLine (by decide) (by decide) (by decide)

theorem parseHead_eq_complete_iff {block : List Byte} {request : HttpRequest} :
    parseHead block = .complete request ↔ ∃ target headers rest, ValidTarget target ∧
      Bodiless 1 headers ∧ block = requestBytes target headers ++ rest ∧
      request = { method := ascii "GET", target := target, version := ascii "HTTP/1.0" } := by
  constructor
  · intro h
    unfold parseHead at h
    cases hlines : headLines block.length block with
    | none =>
      simp [hlines] at h
    | some result =>
      obtain ⟨lines, rest, hall, rfl, hblock⟩ := headLines_eq_some hlines
      rw [hlines] at h
      dsimp only at h
      cases lines with
      | nil => exact nomatch h
      | cons line lines =>
        rw [headerLines_append_nil, cons_append, headD_cons] at h
        have hempty : ¬line.isEmpty = true := by
          rw [List.isEmpty_iff]
          exact (hall line List.mem_cons_self).ne_nil
        rw [if_neg hempty] at h
        split at h
        · rename_i method target version hsplit
          split_ifs at h with hmethod hversion htarget hget hone haccepts
          cases h
          simp only [Bool.not_eq_true', bne_iff_ne, ne_eq, not_not, Bool.not_eq_false] at *
          subst hget hone
          obtain ⟨headers, rfl⟩ := headerLines_of_acceptsHeaders haccepts
          refine ⟨target, headers, rest, isValidTarget_iff.1 htarget,
            acceptsHeaders_map_iff.1 haccepts, ?_, rfl⟩
          rw [hblock, eq_requestLine hsplit, requestBytes, headBytes_append]
        · exact nomatch h
  · rintro ⟨target, headers, rest, htarget, hbodiless, rfl, rfl⟩
    have hlines := @headLines_headBytes _ headers htarget.headLine rest
      (requestBytes target headers ++ rest).length (by
        rw [length_append]
        exact Nat.le_add_right _ _)
    have hnonempty : (requestLine target).isEmpty = false := by
      rw [isEmpty_eq_false_iff]
      exact htarget.headLine.ne_nil
    have haccepts : acceptsHeaders false (headers.map HeaderLine.bytes) = true :=
      acceptsHeaders_map_iff.2 hbodiless
    unfold parseHead
    rw [requestBytes] at hlines ⊢
    rw [hlines]
    dsimp only
    rw [headerLines_append_nil, cons_append, headD_cons, hnonempty, splitExact_requestLine htarget]
    dsimp only
    rw [isValidTarget_iff.2 htarget, haccepts]
    rfl

/-! ## The parser -/

section

variable {target : List Byte} {headers : List HeaderLine}

theorem parseHttpRequest_requestBytes (htarget : ValidTarget target)
    (hbodiless : Bodiless 1 headers) : parseHttpRequest (requestBytes target headers) =
      if (requestLine target).length + 2 > kMaxHttpRequestLineLength ∨
        (requestBytes target headers).length > kMaxHttpHeaderBlockLength then { status := .tooLarge }
      else
        { status := .complete
          request := some
            { method := ascii "GET", target := target, version := ascii "HTTP/1.0" } } := by
  have hcrlf : findText crlf (requestBytes target headers) = some (requestLine target).length := by
    have h := @findText_crlf_headBytes _ headers htarget.headLine []
    rwa [append_nil] at h
  have hterminator : findText headTerminator (requestBytes target headers) =
      some ((requestBytes target headers).length - 4) := by
    have h := @findText_terminator_headBytes _ headers htarget.headLine []
    rwa [append_nil] at h
  have hend : (requestBytes target headers).length - 4 + 4 = (requestBytes target headers).length :=
    Nat.sub_add_cancel (le_trans (Nat.le_add_left _ _) (length_first_add_four_le _ _))
  have hhead : parseHead (requestBytes target headers) = .complete
      { method := ascii "GET", target := target, version := ascii "HTTP/1.0" } :=
    parseHead_eq_complete_iff.2 ⟨target, headers, [], htarget, hbodiless, (append_nil _).symm, rfl⟩
  have hnul : ¬(requestBytes target headers).contains 0 = true := by
    rw [contains_iff_mem]
    exact zero_not_mem_headBytes (htarget.not_mem_requestLine (by decide) (by decide) (by decide))
  have hjudged : judgeHead (requestBytes target headers) [] =
      { status := .complete
        request := some
          { method := ascii "GET", target := target, version := ascii "HTTP/1.0" } } := by
    rw [judgeHead, if_neg hnul, hhead]
    rfl
  rw [parseHttpRequest_terminated hterminator, hcrlf, hend, take_length, drop_length, hjudged]
  refine if_congr (or_congr_left ?_) rfl rfl
  exact decide_eq_true_iff

theorem eq_requestBytes_of_complete {bytes : List Byte}
    (h : (parseHttpRequest bytes).status = .complete) : ∃ target headers,
      bytes = requestBytes target headers ∧ ValidTarget target ∧ Bodiless 1 headers := by
  obtain ⟨terminator, hterminator, -, hends, hcomplete⟩ := exists_head_of_complete h
  have hall : bytes.take (terminator + 4) = bytes := take_of_length_le hends
  rw [judgeHead] at hcomplete
  by_cases hnul : bytes.contains 0 = true
  · rw [if_pos hnul] at hcomplete
    cases hcomplete
  rw [if_neg hnul] at hcomplete
  cases hhead : parseHead bytes with
  | malformed | unsupportedMethod | unsupportedVersion =>
    simp [hhead] at hcomplete
  | complete request =>
    obtain ⟨target, headers, rest, htarget, hbodiless, hbytes, -⟩ :=
      parseHead_eq_complete_iff.1 hhead
    refine ⟨target, headers, ?_, htarget, hbodiless⟩
    rw [← hall] at hbytes ⊢
    exact take_eq_headBytes htarget.headLine hterminator hbytes

end

/-- **`parseHttpRequest` accepts exactly its grammar.** -/
theorem parseHttpRequest_grammar (bytes target : List Byte) :
    ((parseHttpRequest bytes).status = .complete ∧
        (parseHttpRequest bytes).request.map HttpRequest.target = some target) ↔
      ∃ headers : List HeaderLine, bytes = requestBytes target headers ∧ ValidTarget target ∧
        Bodiless 1 headers ∧ (requestLine target).length + 2 ≤ kMaxHttpRequestLineLength ∧
        bytes.length ≤ kMaxHttpHeaderBlockLength := by
  constructor
  · rintro ⟨hcomplete, hrequest⟩
    obtain ⟨found, headers, rfl, htarget, hbodiless⟩ := eq_requestBytes_of_complete hcomplete
    rw [parseHttpRequest_requestBytes htarget hbodiless] at hcomplete hrequest
    split_ifs at hcomplete hrequest with hlimits
    cases hrequest
    rw [not_or, not_lt, not_lt] at hlimits
    exact ⟨headers, rfl, htarget, hbodiless, hlimits.1, hlimits.2⟩
  · rintro ⟨headers, rfl, htarget, hbodiless, hline, hblock⟩
    rw [parseHttpRequest_requestBytes htarget hbodiless,
      if_neg (not_or.2 ⟨not_lt.2 hline, not_lt.2 hblock⟩)]
    exact ⟨rfl, rfl⟩

end Wirestack
