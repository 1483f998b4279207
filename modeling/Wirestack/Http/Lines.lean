import Wirestack.Http.Text

set_option autoImplicit false

/-! # The grammar of message heads

A head is a sequence of lines, each with its CRLF, and an empty line. The parsers find the end of the
head and of its first line by searching and then split it line by line; on lines that contain neither
CR nor LF all three agree. A header line is a name, a colon and a value. -/

namespace Wirestack

open List Option

/-! ## Lines -/

/-- A line of a head that is not the one that ends it. -/
structure HeadLine (line : List Byte) : Prop where
  ne_nil : line ≠ []
  no_cr : 0x0d ∉ line
  no_lf : 0x0a ∉ line

/-- Lines with their line ends. -/
def joinLines (lines : List (List Byte)) : List Byte := lines.flatMap (· ++ crlf)

@[simp]
theorem joinLines_nil : joinLines [] = [] := rfl

@[simp]
theorem joinLines_cons (line : List Byte) (lines : List (List Byte)) :
    joinLines (line :: lines) = line ++ (crlf ++ joinLines lines) := by
  rw [joinLines, flatMap_cons, List.append_assoc]
  rfl

theorem length_joinLines_cons (line : List Byte) (lines : List (List Byte)) :
    (joinLines (line :: lines)).length = line.length + 2 + (joinLines lines).length := by
  rw [joinLines_cons, length_append, length_append, Nat.add_assoc]
  rfl

theorem length_le_joinLines (lines : List (List Byte)) :
    2 * lines.length ≤ (joinLines lines).length := by
  induction lines with
  | nil => exact le_rfl
  | cons line lines ih =>
    rw [length_joinLines_cons, length_cons]
    omega

theorem headLines_joinLines {lines : List (List Byte)} (h : ∀ line ∈ lines, HeadLine line)
    (rest : List Byte) {fuel : ℕ} (hfuel : lines.length < fuel) :
    headLines fuel (joinLines lines ++ (crlf ++ rest)) = some (lines ++ [[]]) := by
  induction lines generalizing fuel with
  | nil =>
    obtain ⟨fuel, rfl⟩ := Nat.exists_eq_add_of_lt hfuel
    rw [length_nil, Nat.zero_add]
    exact headLines_end ..
  | cons line lines ih =>
    obtain ⟨hline, hlines⟩ := forall_mem_cons.1 h
    rw [length_cons] at hfuel
    obtain ⟨fuel, rfl⟩ : ∃ n, fuel = n + 1 := ⟨fuel - 1, by omega⟩
    rw [joinLines_cons, List.append_assoc, List.append_assoc,
      headLines_line hline.no_cr hline.no_lf hline.ne_nil, ih hlines (by omega)]
    rfl

theorem headLines_eq_some {fuel : ℕ} {block : List Byte} {result : List (List Byte)}
    (h : headLines fuel block = some result) : ∃ lines rest, (∀ line ∈ lines, HeadLine line) ∧
      result = lines ++ [[]] ∧ block = joinLines lines ++ (crlf ++ rest) := by
  induction fuel generalizing block result with
  | zero => cases h
  | succ fuel ih =>
    rw [headLines] at h
    cases hfind : findText crlf block with
    | none =>
      simp [hfind] at h
    | some i =>
      rw [hfind] at h
      dsimp only at h
      have hblock : block = block.take i ++ (crlf ++ block.drop (i + 2)) := findText_split hfind
      split_ifs at h with hbare hempty
      · cases h
        refine ⟨[], block.drop (i + 2), forall_mem_nil _, ?_, ?_⟩
        · rw [List.isEmpty_iff.1 hempty]
          rfl
        · rwa [List.isEmpty_iff.1 hempty, nil_append] at hblock
      · obtain ⟨lines, hlines, rfl⟩ := map_eq_some_iff.1 h
        obtain ⟨lines, rest, hall, rfl, hrest⟩ := ih hlines
        simp only [Bool.or_eq_true, contains_iff_mem, not_or] at hbare
        refine ⟨block.take i :: lines, rest, forall_mem_cons.2 ⟨⟨?_, hbare.1, hbare.2⟩, hall⟩,
          rfl, ?_⟩
        · rwa [List.isEmpty_iff] at hempty
        · rwa [joinLines_cons, List.append_assoc, List.append_assoc, ← hrest]

section

variable {line : List Byte} {lines : List (List Byte)}

theorem findText_crlf_joinLines (hline : 0x0d ∉ line) (rest : List Byte) :
    findText crlf (joinLines (line :: lines) ++ rest) = some line.length := by
  have hskip : findText crlf (line ++ (crlf ++ (joinLines lines ++ rest))) =
      (findText crlf (crlf ++ (joinLines lines ++ rest))).map (· + line.length) :=
    findText_skip hline _
  have hstart : findText crlf (crlf ++ (joinLines lines ++ rest)) = some 0 :=
    findText_cons_start (prefix_append crlf _)
  rw [joinLines_cons, List.append_assoc, List.append_assoc, hskip, hstart, map_some, Nat.zero_add]

theorem findText_terminator_next (h : HeadLine line) (rest : List Byte) :
    findText headTerminator (crlf ++ (line ++ rest)) =
      (findText headTerminator (line ++ rest)).map (· + 2) := by
  obtain ⟨b, line, rfl⟩ := exists_cons_of_ne_nil h.ne_nil
  have hcr : (0x0d : Byte) ≠ b := fun hb => h.no_cr (hb ▸ mem_cons_self)
  have hfirst : ¬headTerminator <+: 0x0d :: 0x0a :: (b :: line ++ rest) := by
    intro hleads
    have hthird := (cons_prefix_cons.1 (cons_prefix_cons.1 hleads).2).2
    exact hcr (cons_prefix_cons.1 hthird).1
  have hsecond : ¬headTerminator <+: 0x0a :: (b :: line ++ rest) := fun hleads =>
    absurd (cons_prefix_cons.1 hleads).1 (by decide)
  show findText headTerminator (0x0d :: 0x0a :: (b :: line ++ rest)) = _
  rw [findText_cons_next hfirst, findText_cons_next hsecond, Option.map_map]
  rfl

theorem findText_terminator_joinLines (h : ∀ l ∈ line :: lines, HeadLine l) (rest : List Byte) :
    findText headTerminator (joinLines (line :: lines) ++ (crlf ++ rest)) =
      some ((joinLines (line :: lines)).length - 2) := by
  induction lines generalizing line with
  | nil =>
    have hskip : findText headTerminator (line ++ (crlf ++ (crlf ++ rest))) =
        (findText headTerminator (crlf ++ (crlf ++ rest))).map (· + line.length) :=
      findText_skip (h line mem_cons_self).no_cr _
    have hstart : findText headTerminator (crlf ++ (crlf ++ rest)) = some 0 :=
      findText_cons_start (prefix_append headTerminator rest)
    rw [length_joinLines_cons, joinLines_cons, joinLines_nil, append_nil, List.append_assoc,
      hskip, hstart, map_some, length_nil, Nat.add_zero, Nat.add_sub_cancel,
      Nat.zero_add]
  | cons next lines ih =>
    obtain ⟨hline, hlines⟩ := forall_mem_cons.1 h
    have hnext := (forall_mem_cons.1 hlines).1
    have hlength := length_joinLines_cons next lines
    have hskip : findText headTerminator
        (line ++ (crlf ++ (joinLines (next :: lines) ++ (crlf ++ rest)))) =
        (findText headTerminator (crlf ++ (joinLines (next :: lines) ++ (crlf ++ rest)))).map
          (· + line.length) := findText_skip hline.no_cr _
    have hstep : findText headTerminator (crlf ++ (joinLines (next :: lines) ++ (crlf ++ rest))) =
        (findText headTerminator (joinLines (next :: lines) ++ (crlf ++ rest))).map (· + 2) := by
      rw [joinLines_cons, List.append_assoc]
      exact findText_terminator_next hnext _
    rw [length_joinLines_cons, joinLines_cons, List.append_assoc, List.append_assoc, hskip, hstep,
      ih hlines, map_some, map_some]
    congr 1
    omega

end

/-! ## Header lines -/

/-- A header: a non-empty token as its name, and a value without control bytes other than tabs. -/
structure HeaderLine where
  name : List Byte
  value : List Byte
  name_ne_nil : name ≠ []
  name_token : ∀ c ∈ name, isTokenChar c = true
  value_clean : ∀ c ∈ value, isForbiddenInValue c = false

def HeaderLine.bytes (header : HeaderLine) : List Byte := header.name ++ 0x3a :: header.value

/-- Whether a header has this name, in any case. -/
def HeaderLine.isNamed (header : HeaderLine) (name : String) : Bool :=
  toLower header.name == ascii name

theorem isTokenChar_excludes : ∀ c : Byte, isTokenChar c = true → c ≠ 0x3a ∧ isBlank c = false :=
  forall_byte (by decide +kernel)

theorem isForbiddenInValue_of_isBlank {c : Byte} (h : isBlank c = true) :
    isForbiddenInValue c = false := by
  rw [isBlank, Bool.or_eq_true, beq_iff_eq, beq_iff_eq] at h
  rcases h with rfl | rfl
  · decide
  · decide

theorem HeaderLine.not_mem_bytes (header : HeaderLine) {b : Byte} (hcolon : b ≠ 0x3a)
    (htoken : isTokenChar b = false) (hvalue : isForbiddenInValue b = true) : b ∉ header.bytes := by
  rw [HeaderLine.bytes, mem_append, mem_cons, not_or, not_or]
  refine ⟨fun hmem => ?_, hcolon, fun hmem => ?_⟩
  · simp [header.name_token b hmem] at htoken
  · simp [header.value_clean b hmem] at hvalue

theorem HeaderLine.headLine (header : HeaderLine) : HeadLine header.bytes where
  ne_nil := append_ne_nil_of_right_ne_nil _ (cons_ne_nil _ _)
  no_cr := header.not_mem_bytes (by decide) (by decide) (by decide)
  no_lf := header.not_mem_bytes (by decide) (by decide) (by decide)

theorem any_forbidden_dropWhile (value : List Byte) :
    (value.dropWhile isBlank).any isForbiddenInValue = value.any isForbiddenInValue := by
  induction value with
  | nil => rfl
  | cons c value ih =>
    rw [dropWhile_cons]
    split_ifs with hblank
    · rw [ih, any_cons, isForbiddenInValue_of_isBlank hblank, Bool.false_or]
    · rfl

theorem drop_separator (front : List Byte) (c : Byte) (rest : List Byte) :
    (front ++ c :: rest).drop (front.length + 1) = rest := by
  rw [← drop_drop, drop_left]
  rfl

section

variable {trim : List Byte → List Byte}

theorem headerField_bytes (htrim : ∀ s, (trim s).any isForbiddenInValue = s.any isForbiddenInValue)
    (header : HeaderLine) : headerField trim header.bytes =
      some (header.name, trim (header.value.dropWhile isBlank)) := by
  obtain ⟨name, value, hne, htoken, hclean⟩ := header
  obtain ⟨first, name, rfl⟩ := exists_cons_of_ne_nil hne
  have hblank := (isTokenChar_excludes first (htoken first mem_cons_self)).2
  have hcolon : (0x3a : Byte) ∉ first :: name := fun hmem =>
    (isTokenChar_excludes _ (htoken _ hmem)).1 rfl
  have hfind : findText [0x3a] (first :: (name ++ 0x3a :: value)) = some (name.length + 1) :=
    findText_byte_eq_some_iff.2 ⟨first :: name, value, rfl, hcolon, rfl⟩
  have hname : (first :: (name ++ 0x3a :: value)).take (name.length + 1) = first :: name := by
    rw [take_succ_cons, take_left]
  have hvalue : (first :: (name ++ 0x3a :: value)).drop (name.length + 1 + 1) = value :=
    drop_separator (first :: name) 0x3a value
  show headerField trim (first :: (name ++ 0x3a :: value)) = _
  unfold headerField
  dsimp only
  rw [if_neg (by rw [hblank]; exact Bool.false_ne_true), hfind]
  show (if _ then _ else _) = _
  rw [hname, hvalue, if_neg (by simpa using htoken), htrim, any_forbidden_dropWhile,
    if_neg (by simpa using hclean)]

theorem headerField_eq_some
    (htrim : ∀ s, (trim s).any isForbiddenInValue = s.any isForbiddenInValue)
    {line name value : List Byte} (h : headerField trim line = some (name, value)) :
    ∃ header : HeaderLine, line = header.bytes ∧ name = header.name ∧
      value = trim (header.value.dropWhile isBlank) := by
  unfold headerField at h
  cases line with
  | nil => exact nomatch h
  | cons first line =>
    dsimp only at h
    split_ifs at h with hblank
    cases hfind : findText [0x3a] (first :: line) with
    | none =>
      simp [hfind] at h
    | some colon =>
      obtain ⟨front, rest, hline, hcolon, rfl⟩ := findText_byte_eq_some_iff.1 hfind
      rw [hfind, hline] at h
      cases front with
      | nil => exact nomatch h
      | cons c front =>
        have hname : (c :: front ++ 0x3a :: rest).take (front.length + 1) = c :: front :=
          take_left' rfl
        have hvalue : (c :: front ++ 0x3a :: rest).drop (front.length + 1 + 1) = rest :=
          drop_separator (c :: front) 0x3a rest
        change (if _ then _ else _) = _ at h
        rw [length_cons, hname, hvalue, htrim, any_forbidden_dropWhile] at h
        split_ifs at h with htoken hclean
        cases h
        refine ⟨⟨c :: front, rest, cons_ne_nil _ _, ?_, ?_⟩, hline, rfl, rfl⟩
        · simpa using htoken
        · simpa using hclean

end

/-! ## Heads -/

/-- A head: a first line, header lines and an empty line, each with its line end. -/
def headBytes (first : List Byte) (headers : List HeaderLine) : List Byte :=
  first ++ crlf ++ headers.flatMap (fun header => header.bytes ++ crlf) ++ crlf

section

variable {first : List Byte} {headers : List HeaderLine}

section

variable (first : List Byte) (headers : List HeaderLine) (rest : List Byte)

theorem headBytes_append : headBytes first headers ++ rest =
      joinLines (first :: headers.map HeaderLine.bytes) ++ (crlf ++ rest) := by
  rw [headBytes, joinLines_cons, joinLines, flatMap_map]
  simp only [List.append_assoc]

theorem length_headBytes : (headBytes first headers).length =
      (joinLines (first :: headers.map HeaderLine.bytes)).length + 2 := by
  have h := congrArg length (headBytes_append first headers [])
  rwa [append_nil, append_nil, length_append] at h

theorem length_first_add_four_le : first.length + 4 ≤ (headBytes first headers).length := by
  rw [length_headBytes, length_joinLines_cons]
  omega

end

theorem HeadLine.lines (h : HeadLine first) (headers : List HeaderLine) :
    ∀ line ∈ first :: headers.map HeaderLine.bytes, HeadLine line := by
  refine forall_mem_cons.2 ⟨h, fun line hline => ?_⟩
  obtain ⟨header, -, rfl⟩ := mem_map.1 hline
  exact header.headLine

theorem findText_crlf_headBytes (h : HeadLine first) (rest : List Byte) :
    findText crlf (headBytes first headers ++ rest) = some first.length := by
  rw [headBytes_append]
  exact findText_crlf_joinLines h.no_cr _

theorem findText_terminator_headBytes (h : HeadLine first) (rest : List Byte) :
    findText headTerminator (headBytes first headers ++ rest) =
      some ((headBytes first headers).length - 4) := by
  rw [headBytes_append, findText_terminator_joinLines (h.lines headers), length_headBytes]
  rfl

theorem headLines_headBytes (h : HeadLine first) (rest : List Byte) {fuel : ℕ}
    (hfuel : (headBytes first headers).length ≤ fuel) :
    headLines fuel (headBytes first headers ++ rest) =
      some (first :: headers.map HeaderLine.bytes ++ [[]]) := by
  have hlines := length_le_joinLines (first :: headers.map HeaderLine.bytes)
  rw [length_headBytes] at hfuel
  rw [headBytes_append]
  exact headLines_joinLines (h.lines headers) rest (by omega)

theorem headerLines_append_nil (first : List Byte) (lines : List (List Byte)) :
    headerLines (first :: lines ++ [[]]) = lines := dropLast_concat

theorem zero_not_mem_headBytes (h : 0 ∉ first) : 0 ∉ headBytes first headers := by
  rw [headBytes, mem_append, mem_append, mem_append, not_or, not_or, not_or]
  refine ⟨⟨⟨h, by decide⟩, fun hmem => ?_⟩, by decide⟩
  obtain ⟨header, -, hmem⟩ := mem_flatMap.1 hmem
  rcases mem_append.1 hmem with hmem | hmem
  · exact header.not_mem_bytes (by decide) (by decide) (by decide) hmem
  · exact absurd hmem (by decide)

theorem take_eq_headBytes {buffer rest : List Byte} {terminator : ℕ} (h : HeadLine first)
    (hterminator : findText headTerminator buffer = some terminator)
    (hblock : buffer.take (terminator + 4) = headBytes first headers ++ rest) :
    buffer.take (terminator + 4) = headBytes first headers := by
  have hfound := @findText_terminator_headBytes _ headers h (rest ++ buffer.drop (terminator + 4))
  rw [← List.append_assoc, ← hblock, take_append_drop, hterminator, some_inj] at hfound
  have hfour := length_first_add_four_le first headers
  have hlength := congrArg length hblock
  have hle := length_take_le (terminator + 4) buffer
  rw [length_append] at hlength
  have hrest : rest = [] := length_eq_zero_iff.1 (by omega)
  rw [hblock, hrest, append_nil]

end

end Wirestack
