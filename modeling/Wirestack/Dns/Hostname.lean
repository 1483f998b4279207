import Wirestack.Dns.Labels

set_option autoImplicit false

/-! # Hostnames

`normalizeHostname` accepts the hostnames of 1 to 253 bytes whose labels are 1 to 63 letters, digits
and hyphens without a hyphen at either end, and returns them in lower case. The source has two loops
that split at dots with `find` and `substr`, one in the validator and one in the encoder of the query;
both go through the labels of `List.splitOn` in order. -/

namespace Wirestack

open List

variable {label raw hostname : List Byte}

/-! ## The splitting loops -/

/-- `hostname.find('.', labelStart)`. -/
def findDot (hostname : List Byte) (labelStart : ℕ) : Option ℕ :=
  (findText [dot] (hostname.drop labelStart)).map (· + labelStart)

/-- The label from `labelStart` to the dot that was found, or to the end. -/
def labelAt (hostname : List Byte) (labelStart : ℕ) : Option ℕ → List Byte
  | none => hostname.drop labelStart
  | some next => (hostname.drop labelStart).take (next - labelStart)

/-- The loop of `normalizeHostname`. -/
def normalizeHostnameFrom (hostname : List Byte) : ℕ → ℕ → List Byte →
    Except HostnameError (List Byte)
  | 0, _, normalized => .ok normalized
  | fuel + 1, labelStart, normalized =>
    if labelStart ≤ hostname.length then
      let next := findDot hostname labelStart
      let label := labelAt hostname labelStart next
      match labelError label with
      | some error => .error error
      | none =>
        let separated := if normalized.isEmpty then normalized else normalized ++ [dot]
        match next with
        | none => .ok (separated ++ toLower label)
        | some next => normalizeHostnameFrom hostname fuel (next + 1) (separated ++ toLower label)
    else .ok normalized

/-- The loop of `serializeDnsQuery`. -/
def encodeHostnameFrom (hostname : List Byte) : ℕ → ℕ → List Byte
  | 0, _ => []
  | fuel + 1, labelStart =>
    if labelStart ≤ hostname.length then
      let next := findDot hostname labelStart
      encodeLabel (labelAt hostname labelStart next) ++
        match next with
        | none => []
        | some next => encodeHostnameFrom hostname fuel (next + 1)
    else []

section

variable (labels : List (List Byte)) (c : Byte) (hostname : List Byte) (fuel labelStart : ℕ)

theorem splitOn_drop : findDot hostname labelStart = none ∧
      (hostname.drop labelStart).splitOn dot = [labelAt hostname labelStart none] ∨
    ∃ next, findDot hostname labelStart = some next ∧ labelStart ≤ next ∧ next < hostname.length ∧
      (hostname.drop labelStart).splitOn dot =
        labelAt hostname labelStart (some next) :: (hostname.drop (next + 1)).splitOn dot := by
  cases hfind : findText [dot] (hostname.drop labelStart) with
  | none =>
    refine .inl ⟨by rw [findDot, hfind]; rfl, ?_⟩
    exact splitOn_eq_singleton (findText_byte_eq_none_iff.1 hfind)
  | some i =>
    obtain ⟨front, rest, hsplit, hfront, rfl⟩ := findText_byte_eq_some_iff.1 hfind
    have hdrop : hostname.drop labelStart = (front ++ [dot]) ++ rest := by
      rw [hsplit, append_assoc]
      rfl
    have hsize := lt_length_of_drop hdrop (by simp)
    have hrest := drop_add_of_drop hdrop
    rw [length_append, length_singleton] at hsize hrest
    refine .inr ⟨labelStart + front.length, ?_, Nat.le_add_right _ _, by omega, ?_⟩
    · rw [findDot, hfind, Option.map_some, Nat.add_comm]
    · rw [labelAt, Nat.add_sub_cancel_left, hsplit, take_left, Nat.add_assoc, hrest]
      exact splitOn_append_cons_self_of_not_mem hfront rest

theorem normalizeHostnameFrom_eq :
    ∀ {labelStart : ℕ} (normalized : List Byte), labelStart ≤ hostname.length →
      hostname.length < labelStart + fuel →
      normalizeHostnameFrom hostname fuel labelStart normalized =
        normalizeLabels ((hostname.drop labelStart).splitOn dot) normalized := by
  induction fuel with
  | zero =>
    intro labelStart normalized hstart hfuel
    omega
  | succ fuel ih =>
    intro labelStart normalized hstart hfuel
    rw [normalizeHostnameFrom, if_pos hstart]
    obtain ⟨hfind, hsplit⟩ | ⟨next, hfind, hle, hlt, hsplit⟩ := splitOn_drop hostname labelStart
    · rw [hfind, hsplit, normalizeLabels]
      dsimp only
      cases labelError (labelAt hostname labelStart none) with
      | some error | none => rfl
    · rw [hfind, hsplit, normalizeLabels]
      dsimp only
      cases labelError (labelAt hostname labelStart (some next)) with
      | some error => rfl
      | none => exact ih _ hlt (by omega)

theorem encodeHostnameFrom_eq :
    ∀ {labelStart : ℕ}, labelStart ≤ hostname.length → hostname.length < labelStart + fuel →
      encodeHostnameFrom hostname fuel labelStart =
        ((hostname.drop labelStart).splitOn dot).flatMap encodeLabel := by
  induction fuel with
  | zero =>
    intro labelStart hstart hfuel
    omega
  | succ fuel ih =>
    intro labelStart hstart hfuel
    rw [encodeHostnameFrom, if_pos hstart]
    obtain ⟨hfind, hsplit⟩ | ⟨next, hfind, hle, hlt, hsplit⟩ := splitOn_drop hostname labelStart
    · rw [hfind, hsplit]
      rfl
    · rw [hfind, hsplit, flatMap_cons, ← ih (show next + 1 ≤ hostname.length from hlt) (by omega)]

/-! ## Labels -/

/-- A label of a hostname. -/
structure HostLabel (label : List Byte) : Prop where
  fits : WireLabel label
  chars : ∀ c ∈ label, isLdhChar c = true
  first : label.head? ≠ some hyphen
  last : label.getLast? ≠ some hyphen

theorem labelError_eq_none_iff : labelError label = none ↔ HostLabel label := by
  unfold labelError
  constructor
  · intro h
    split_ifs at h with hempty hlong hhyphen hchars
    simp only [Bool.or_eq_true, beq_iff_eq, not_or] at hhyphen
    refine ⟨⟨?_, not_lt.1 hlong⟩, ?_, hhyphen.1, hhyphen.2⟩
    · rw [List.isEmpty_iff] at hempty
      exact List.length_pos_iff.2 hempty
    · simpa using hchars
  · intro h
    have hempty : ¬label.isEmpty = true := by
      rw [List.isEmpty_iff, ← Ne, ← List.length_pos_iff]
      exact h.fits.1
    rw [if_neg hempty, if_neg (not_lt.2 h.fits.2), if_neg (by simp [h.first, h.last]),
      if_neg (by simpa using h.chars)]

theorem normalizeLabels_eq_ok_iff {labels : List (List Byte)} {normalized name : List Byte} :
    normalizeLabels labels normalized = .ok name ↔
      (∀ label ∈ labels, HostLabel label) ∧ name = normalized ++ spell normalized.isEmpty labels := by
  induction labels generalizing normalized with
  | nil =>
    rw [normalizeLabels, spell, append_nil, Except.ok.injEq]
    exact ⟨fun h => ⟨forall_mem_nil _, h.symm⟩, fun h => h.2.symm⟩
  | cons label labels ih =>
    rw [normalizeLabels, forall_mem_cons, ← labelError_eq_none_iff]
    cases herror : labelError label with
    | some error => simp
    | none =>
      have hlabel := (labelError_eq_none_iff.1 herror).fits.1
      have hseparated : (if normalized.isEmpty then normalized else normalized ++ [dot]) =
          normalized ++ if normalized.isEmpty then [] else [dot] := separated_eq _ _
      have hnext : ((normalized ++ if normalized.isEmpty then [] else [dot]) ++
          toLower label).isEmpty = false := by
        rw [isEmpty_eq_false_iff, ← List.length_pos_iff, length_append, length_toLower]
        omega
      rw [hseparated, ih, hnext, spell]
      simp only [append_assoc, true_and]

/-! ## Lower case -/

theorem isLdhChar_lower : isLdhChar (if between 'A' 'Z' c then c + 0x20 else c) = isLdhChar c := by
  revert c
  exact forall_byte (by decide +kernel)

theorem lower_eq_hyphen_iff :
    (if between 'A' 'Z' c then c + 0x20 else c) = hyphen ↔ c = hyphen := by
  revert c
  exact forall_byte (by decide +kernel)

theorem HostLabel.lower (h : HostLabel label) : HostLabel (toLower label) := by
  refine ⟨⟨?_, ?_⟩, ?_, ?_, ?_⟩
  · rw [length_toLower]
    exact h.fits.1
  · rw [length_toLower]
    exact h.fits.2
  · intro c hc
    obtain ⟨c', hc', rfl⟩ := mem_map.1 hc
    rw [isLdhChar_lower]
    exact h.chars c' hc'
  · rw [toLower, head?_map]
    intro hfirst
    obtain ⟨c, hc, hlower⟩ := Option.map_eq_some_iff.1 hfirst
    rw [(lower_eq_hyphen_iff c).1 hlower] at hc
    exact h.first hc
  · rw [toLower, getLast?_map]
    intro hlast
    obtain ⟨c, hc, hlower⟩ := Option.map_eq_some_iff.1 hlast
    rw [(lower_eq_hyphen_iff c).1 hlower] at hc
    exact h.last hc

theorem toLower_intercalate :
    toLower ([dot].intercalate labels) = [dot].intercalate (labels.map toLower) := by
  cases labels with
  | nil => rfl
  | cons label labels =>
    induction labels generalizing label with
    | nil => simp only [intercalate_singleton, map_cons, map_nil]
    | cons next labels ih =>
      rw [map_cons, map_cons, intercalate_cons_cons, intercalate_cons_cons, ← map_cons, ← ih]
      simp only [toLower, map_append]
      rfl

theorem splitOn_toLower : (toLower hostname).splitOn dot = (hostname.splitOn dot).map toLower := by
  have hjoined : toLower hostname = [dot].intercalate ((hostname.splitOn dot).map toLower) := by
    rw [← toLower_intercalate, List.intercalate_splitOn]
  rw [hjoined]
  refine splitOn_intercalate dot ?_ ?_
  · intro piece hpiece
    obtain ⟨label, hlabel, rfl⟩ := mem_map.1 hpiece
    exact fun hdot => not_mem_of_mem_splitOn hlabel (dot_mem_toLower.1 hdot)
  · rw [Ne, map_eq_nil_iff]
    exact splitOn_ne_nil dot hostname

end

/-! ## Hostnames -/

theorem normalizeHostname_eq_ok_iff : normalizeHostname raw = .ok hostname ↔
      (1 ≤ raw.length ∧ raw.length ≤ 253 ∧ ∀ label ∈ raw.splitOn dot, HostLabel label) ∧
      hostname = toLower raw := by
  have hspelled : [] ++ spell ([] : List Byte).isEmpty (raw.splitOn dot) = toLower raw := by
    rw [List.nil_append, List.isEmpty_nil, spell_eq_intercalate, ← toLower_intercalate,
      List.intercalate_splitOn]
  unfold normalizeHostname
  by_cases hempty : raw.isEmpty = true
  · rw [if_pos hempty, List.isEmpty_iff.1 hempty]
    exact iff_of_false (nofun) (fun h => nomatch h.1.1)
  rw [if_neg hempty]
  by_cases hlong : raw.length > 253
  · rw [if_pos hlong]
    exact iff_of_false (nofun) (fun h => absurd h.1.2.1 (not_le.2 hlong))
  rw [if_neg hlong, normalizeLabels_eq_ok_iff, hspelled]
  rw [List.isEmpty_iff] at hempty
  refine and_congr_left' ?_
  exact ⟨fun h => ⟨List.length_pos_iff.2 hempty, not_lt.1 hlong, h⟩, fun h => h.2.2⟩

theorem normalizeHostname_idempotent (h : normalizeHostname raw = .ok hostname) :
    normalizeHostname hostname = .ok hostname := by
  obtain ⟨⟨hpos, hmax, hlabels⟩, rfl⟩ := normalizeHostname_eq_ok_iff.1 h
  refine normalizeHostname_eq_ok_iff.2 ⟨⟨?_, ?_, ?_⟩, (toLower_toLower raw).symm⟩
  · rwa [length_toLower]
  · rwa [length_toLower]
  · intro piece hpiece
    rw [splitOn_toLower] at hpiece
    obtain ⟨label, hlabel, rfl⟩ := mem_map.1 hpiece
    exact (hlabels label hlabel).lower

end Wirestack
