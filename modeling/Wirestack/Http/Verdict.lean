import Wirestack.Http.Request

set_option autoImplicit false

/-! # The verdict on a request

`parseHttpRequest` looks for the end of the head first. Without it only the limits count; with it the
limits come first and then the head and what is behind it (`judgeHead`), which is all that later bytes
can still change. -/

namespace Wirestack

variable {buffer headBlock extra : List Byte} {terminator : ℕ}

theorem parseHttpRequest_unterminated (hterminator : findText headTerminator buffer = none)
    (hlong : kMaxHttpHeaderBlockLength ≤ buffer.length) :
    parseHttpRequest buffer = { status := .tooLarge } := by
  rw [parseHttpRequest, hterminator, if_pos hlong, ite_self]

/-- The verdict on a terminated head of the right size. -/
def judgeHead (headBlock extra : List Byte) : HttpParseResult :=
  if headBlock.contains 0 then { status := .malformed }
  else
    match parseHead headBlock with
    | .malformed => { status := .malformed }
    | .unsupportedMethod => { status := .unsupportedMethod }
    | .unsupportedVersion => { status := .unsupportedVersion }
    | .complete request =>
      if !extra.isEmpty then { status := .malformed }
      else { status := .complete, request := some request }

theorem parseHttpRequest_terminated (hterminator : findText headTerminator buffer = some terminator) :
    parseHttpRequest buffer = if requestLineTooLong (findText crlf buffer) ∨
        terminator + 4 > kMaxHttpHeaderBlockLength then { status := .tooLarge }
      else judgeHead (buffer.take (terminator + 4)) (buffer.drop (terminator + 4)) := by
  rw [parseHttpRequest, hterminator]
  dsimp only
  by_cases hline : requestLineTooLong (findText crlf buffer) = true
  · rw [if_pos hline, if_pos (.inl hline)]
  · rw [if_neg hline]
    by_cases hblock : terminator + 4 > kMaxHttpHeaderBlockLength
    · rw [if_pos hblock, if_pos (.inr hblock)]
    · rw [if_neg hblock, if_neg (not_or.2 ⟨hline, hblock⟩)]
      rfl

/-- Bytes that come in behind the head leave its limits as they are. -/
theorem parseHttpRequest_terminated_append
    (hterminator : findText headTerminator buffer = some terminator) (more : List Byte) :
    parseHttpRequest (buffer ++ more) = if requestLineTooLong (findText crlf buffer) ∨
        terminator + 4 > kMaxHttpHeaderBlockLength then { status := .tooLarge }
      else judgeHead (buffer.take (terminator + 4)) (buffer.drop (terminator + 4) ++ more) := by
  have hfits : terminator + 4 ≤ buffer.length := findText_le hterminator
  obtain ⟨firstCrlf, -, hcrlf⟩ := findText_start
    (show crlf <+: headTerminator from ⟨crlf, rfl⟩) hterminator
  rw [parseHttpRequest_terminated (findText_append hterminator), findText_append hcrlf, ← hcrlf,
    List.take_append_of_le_length hfits, List.drop_append_of_le_length hfits]

/-- Bytes behind the head spoil a complete request and nothing else. -/
theorem judgeHead_extra (hextra : extra ≠ []) : judgeHead headBlock extra =
      if (judgeHead headBlock []).status = .complete then { status := .malformed }
      else judgeHead headBlock [] := by
  unfold judgeHead
  by_cases hnul : headBlock.contains 0 = true
  · rw [if_pos hnul, if_pos hnul]
    rfl
  · rw [if_neg hnul, if_neg hnul]
    cases parseHead headBlock with
    | malformed | unsupportedMethod | unsupportedVersion => rfl
    | complete request =>
      dsimp only
      rw [if_pos (show (!extra.isEmpty) = true by simpa using hextra)]
      rfl

theorem judgeHead_complete (h : (judgeHead headBlock extra).status = .complete) : extra = [] := by
  by_contra hextra
  rw [judgeHead_extra hextra] at h
  split_ifs at h with hcomplete
  exact hcomplete h

/-- What a complete request looks like: its head ends it. -/
theorem exists_head_of_complete (h : (parseHttpRequest buffer).status = .complete) :
    ∃ terminator, findText headTerminator buffer = some terminator ∧
      ¬(requestLineTooLong (findText crlf buffer) = true ∨
        terminator + 4 > kMaxHttpHeaderBlockLength) ∧
      buffer.length ≤ terminator + 4 ∧ (judgeHead buffer []).status = .complete := by
  cases hterminator : findText headTerminator buffer with
  | none =>
    unfold parseHttpRequest at h
    rw [hterminator] at h
    dsimp only at h
    split_ifs at h
  | some terminator =>
    rw [parseHttpRequest_terminated hterminator] at h
    split_ifs at h with hlimits
    have hextra := judgeHead_complete h
    have hends := List.drop_eq_nil_iff.1 hextra
    rw [hextra, List.take_of_length_le hends] at h
    exact ⟨terminator, rfl, hlimits, hends, h⟩

/-- A complete request is no longer than a header block may be. -/
theorem parseHttpRequest_complete_length (h : (parseHttpRequest buffer).status = .complete) :
    buffer.length ≤ kMaxHttpHeaderBlockLength := by
  obtain ⟨terminator, -, hlimits, hends, -⟩ := exists_head_of_complete h
  exact hends.trans (not_lt.1 (not_or.1 hlimits).2)

/-- Anything behind a complete request makes it malformed. -/
theorem parseHttpRequest_complete_append {more : List Byte}
    (h : (parseHttpRequest buffer).status = .complete) (hmore : more ≠ []) :
    (parseHttpRequest (buffer ++ more)).status = .malformed := by
  obtain ⟨terminator, hterminator, hlimits, hends, hcomplete⟩ := exists_head_of_complete h
  rw [parseHttpRequest_terminated_append hterminator, if_neg hlimits,
    List.take_of_length_le hends, List.drop_eq_nil_iff.2 hends, List.nil_append,
    judgeHead_extra hmore, if_pos hcomplete]

end Wirestack
