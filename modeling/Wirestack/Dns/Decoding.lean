import Wirestack.Dns.Message
import Wirestack.Wire.Reads

set_option autoImplicit false

/-! # Names on the wire

`WireName` is the grammar of names in a packet, over the bytes an encoder writes: labels of 1 to 63
bytes, and behind them a zero byte or a pointer to an earlier position where the name goes on.
`decodeName` reads exactly these names, as far as they keep within its two limits. The same scan with
every read checked against the end of the packet always returns, so no read is outside it; the parser
of responses inherits this record by record. -/

namespace Wirestack

open List Option

variable {label packet : List Byte} {labels : List (List Byte)} {offset length pointers : ℕ}

/-! ## The grammar -/

/-- A compression pointer. -/
def encodePointer (target : ℕ) : List Byte :=
  [UInt8.ofNat (0xc0 + target / 256), UInt8.ofNat (target % 256)]

/-- The length of a label is written in six bits, and zero ends the name. -/
def WireLabel (label : List Byte) : Prop := 1 ≤ label.length ∧ label.length ≤ kMaxDnsLabelLength

instance (label : List Byte) : Decidable (WireLabel label) := inferInstanceAs (Decidable (_ ∧ _))

/-- The name at `offset`: its labels, how many bytes it takes up there, which are those up to its zero
    byte or its first pointer, and how many pointers are followed in all. -/
inductive WireName (packet : List Byte) : ℕ → List (List Byte) → ℕ → ℕ → Prop
  | root {offset : ℕ} (hbytes : [0] <+: packet.drop offset) : WireName packet offset [] 1 0
  | label {offset length pointers : ℕ} {label : List Byte} {labels : List (List Byte)}
      (hlabel : WireLabel label) (hbytes : encodeLabel label <+: packet.drop offset)
      (hrest : WireName packet (offset + (encodeLabel label).length) labels length pointers) :
      WireName packet offset (label :: labels) ((encodeLabel label).length + length) pointers
  | pointer {offset target length pointers : ℕ} {labels : List (List Byte)}
      (htarget : target < 2 ^ 14) (hbytes : encodePointer target <+: packet.drop offset)
      (hback : target < offset) (hname : WireName packet target labels length pointers) :
      WireName packet offset labels 2 (pointers + 1)

/-- A name as it is written in one place: its labels up to the zero byte, or up to a pointer. -/
structure NameField where
  labels : List (List Byte)
  pointer : Option ℕ := none
  labels_fit : ∀ label ∈ labels, WireLabel label
  pointer_fits : ∀ target ∈ pointer, target < 2 ^ 14

def NameField.bytes (field : NameField) : List Byte :=
  field.labels.flatMap encodeLabel ++ field.pointer.elim [0] encodePointer

theorem pointer_fits_none : ∀ target ∈ (none : Option ℕ), target < 2 ^ 14 := by simp

/-- A name that is written out. -/
def NameField.uncompressed (labels : List (List Byte))
    (hfit : ∀ label ∈ labels, WireLabel label) : NameField :=
  { labels := labels, pointer := none, labels_fit := hfit, pointer_fits := pointer_fits_none }

theorem NameField.bytes_cons {pointer : Option ℕ} (hfit : ∀ l ∈ label :: labels, WireLabel l)
    (hpointer : ∀ target ∈ pointer, target < 2 ^ 14) :
    (NameField.mk (label :: labels) pointer hfit hpointer).bytes = encodeLabel label ++
      (NameField.mk labels pointer (forall_mem_cons.1 hfit).2 hpointer).bytes := by
  rw [NameField.bytes, NameField.bytes, flatMap_cons, append_assoc]

@[simp]
theorem length_encodeLabel (label : List Byte) : (encodeLabel label).length = label.length + 1 := rfl

@[simp]
theorem length_encodePointer (target : ℕ) : (encodePointer target).length = 2 := rfl

/-! ## Length bytes and pointers -/

theorem toNat_and_c0 (b : Byte) : (b &&& 0xc0).toNat = b.toNat / 64 * 64 := by
  revert b
  exact forall_byte (by decide +kernel)

theorem and_c0_eq_zero_iff (b : Byte) : b &&& 0xc0 = 0 ↔ b.toNat ≤ kMaxDnsLabelLength := by
  have hmax : kMaxDnsLabelLength = 63 := rfl
  rw [← UInt8.toNat_inj, toNat_and_c0, hmax]
  show b.toNat / 64 * 64 = 0 ↔ _
  omega

theorem and_c0_eq_c0_iff (b : Byte) : b &&& 0xc0 = 0xc0 ↔ 192 ≤ b.toNat := by
  have hlt := b.toNat_lt
  rw [← UInt8.toNat_inj, toNat_and_c0]
  show b.toNat / 64 * 64 = 192 ↔ _
  omega

theorem toNat_compressionPointer (high low : Byte) :
    (compressionPointer high low).toNat = high.toNat % 64 * 2 ^ 8 + low.toNat := by
  have hsix : (high &&& 0x3f).toNat = high.toNat % 64 := by
    rw [UInt8.toNat_and]
    exact Nat.and_two_pow_sub_one_eq_mod high.toNat 6
  rw [← hsix]
  exact toNat_bigEndianWord _ _

theorem encodePointer_compressionPointer {high low : Byte} (hform : high &&& 0xc0 = 0xc0) :
    encodePointer (compressionPointer high low).toNat = [high, low] := by
  have hlow := low.toNat_lt
  have hhigh := high.toNat_lt
  have hbits := (and_c0_eq_c0_iff high).1 hform
  have hfirst : 0xc0 + (high.toNat % 64 * 2 ^ 8 + low.toNat) / 256 = high.toNat := by omega
  have hsecond : (high.toNat % 64 * 2 ^ 8 + low.toNat) % 256 = low.toNat := by omega
  rw [toNat_compressionPointer, encodePointer, hfirst, hsecond, UInt8.ofNat_toNat, UInt8.ofNat_toNat]

theorem compressionPointer_lt (high low : Byte) : (compressionPointer high low).toNat < 2 ^ 14 := by
  have hlow := low.toNat_lt
  rw [toNat_compressionPointer]
  omega

theorem toNat_pointer_high {target : ℕ} (h : target < 2 ^ 14) :
    (UInt8.ofNat (0xc0 + target / 256)).toNat = 0xc0 + target / 256 := by
  rw [UInt8.toNat_ofNat']
  omega

theorem compressionPointer_encodePointer {target : ℕ} (h : target < 2 ^ 14) :
    (compressionPointer (UInt8.ofNat (0xc0 + target / 256)) (UInt8.ofNat (target % 256))).toNat =
      target := by
  rw [toNat_compressionPointer, toNat_pointer_high h, UInt8.toNat_ofNat']
  omega

theorem WireLabel.toNat_length (h : WireLabel label) :
    (UInt8.ofNat label.length).toNat = label.length := by
  have hmax : label.length ≤ 63 := h.2
  rw [UInt8.toNat_ofNat']
  omega

theorem WireLabel.and_c0 (h : WireLabel label) : UInt8.ofNat label.length &&& 0xc0 = 0 := by
  rw [and_c0_eq_zero_iff, h.toNat_length]
  exact h.2

theorem WireLabel.byte_ne_zero (h : WireLabel label) : UInt8.ofNat label.length ≠ 0 := by
  rw [Ne, ← UInt8.toNat_inj, h.toNat_length]
  exact Nat.one_le_iff_ne_zero.1 h.1

theorem take_of_encodeLabel {rest : List Byte} (h : packet.drop offset = encodeLabel label ++ rest) :
    (packet.drop (offset + 1)).take label.length = label := by
  rw [← drop_drop, h, encodeLabel, cons_append, drop_one, tail_cons, take_left]

/-! ## Spelling -/

/-- What the loop of `decodeName` appends for the labels still to come. -/
def spell (firstLabel : Bool) : List (List Byte) → List Byte
  | [] => []
  | label :: rest => (if firstLabel then [] else [dot]) ++ toLower label ++ spell false rest

theorem spell_eq_intercalate (labels : List (List Byte)) :
    spell true labels = [dot].intercalate (labels.map toLower) := by
  cases labels with
  | nil => rfl
  | cons label rest =>
    rw [spell, if_pos rfl, nil_append, map_cons]
    induction rest generalizing label with
    | nil => rw [spell, append_nil, map_nil, intercalate_singleton]
    | cons next rest ih =>
      rw [spell, if_neg Bool.false_ne_true, map_cons, intercalate_cons_cons, ← ih]
      simp only [append_assoc]

@[simp]
theorem length_toLower (s : List Byte) : (toLower s).length = s.length := length_map _

theorem length_le_spell (h : ∀ label ∈ labels, WireLabel label) (firstLabel : Bool) :
    labels.length ≤ (spell firstLabel labels).length := by
  induction labels generalizing firstLabel with
  | nil => exact Nat.zero_le _
  | cons label labels ih =>
    have hlabel := (h label mem_cons_self).1
    have hrest := ih (fun l hl => h l (mem_cons_of_mem _ hl)) false
    rw [spell, length_append, length_append, length_toLower, length_cons]
    omega

theorem separated_eq (name : List Byte) (firstLabel : Bool) :
    (if firstLabel then name else name ++ [dot]) = name ++ if firstLabel then [] else [dot] := by
  cases firstLabel
  · rfl
  · exact (append_nil _).symm

/-! ## What the loop reads -/

section

variable {packet : List Byte} {startOffset : ℕ}

theorem wireLabel_at {cursor : ℕ} (hend : cursor < packet.length)
    (hzero : packet.getD cursor 0 ≠ 0) (hreserved : packet.getD cursor 0 &&& 0xc0 = 0)
    (hfits : cursor + 1 + (packet.getD cursor 0).toNat ≤ packet.length) :
    let label := (packet.drop (cursor + 1)).take (packet.getD cursor 0).toNat
    WireLabel label ∧ encodeLabel label <+: packet.drop cursor ∧
      (encodeLabel label).length = 1 + (packet.getD cursor 0).toNat := by
  intro label
  have hlen : label.length = (packet.getD cursor 0).toNat := by
    rw [length_take, length_drop]
    omega
  refine ⟨?_, ?_, ?_⟩
  · rw [WireLabel, hlen, Nat.one_le_iff_ne_zero]
    exact ⟨fun h => hzero (UInt8.toNat_inj.1 h), (and_c0_eq_zero_iff _).1 hreserved⟩
  · rw [drop_eq_getD_cons hend, encodeLabel, hlen, UInt8.ofNat_toNat]
    exact cons_prefix_cons.2 ⟨rfl, take_prefix _ _⟩
  · rw [length_encodeLabel, hlen, Nat.add_comm]

theorem decodeNameFrom_sound (fuel : ℕ) : ∀ {s : NameScan} {result : NameDecodeResult},
    decodeNameFrom packet startOffset fuel s = some result →
    s.hops ≤ kMaxDnsPointerHops → s.name.length ≤ kMaxDnsNameLength →
    ∃ labels length pointers, WireName packet s.cursor labels length pointers ∧
      s.hops + pointers ≤ kMaxDnsPointerHops ∧
      result.name = s.name ++ spell s.firstLabel labels ∧
      result.name.length ≤ kMaxDnsNameLength ∧
      result.bytesInRecord = s.recordEnd.getD (s.cursor + length) - startOffset := by
  induction fuel with
  | zero =>
    intro s result h
    cases h
  | succ fuel ih =>
    intro s result h hhops hlength
    rw [decodeNameFrom] at h
    dsimp only at h
    have hseparated := separated_eq s.name s.firstLabel
    generalize (if s.firstLabel then s.name else s.name ++ [dot]) = separated at h hseparated
    split_ifs at h with hend hform hlow hback hmore hzero hreserved hfits hlong
    · -- a pointer leads to the labels that are left
      obtain ⟨labels, length, pointers, hname, hcount, hspelled, hshort, hrecord⟩ :=
        ih h (not_lt.1 hmore) hlength
      refine ⟨labels, 2, pointers + 1,
        .pointer (compressionPointer_lt _ _) ?_ (not_le.1 hback) hname, ?_, hspelled, hshort, ?_⟩
      · rw [encodePointer_compressionPointer hform, drop_eq_getD_cons (not_le.1 hend),
          drop_eq_getD_cons (not_le.1 hlow)]
        exact ⟨_, rfl⟩
      · dsimp only at hcount
        omega
      · rw [hrecord]
        rfl
    · -- the root ends the name
      cases h
      refine ⟨[], 1, 0, .root ?_, hhops, (append_nil _).symm, hlength, rfl⟩
      rw [drop_eq_getD_cons (not_le.1 hend), hzero]
      exact ⟨_, rfl⟩
    · obtain ⟨labels, length, pointers, hname, hcount, hspelled, hshort, hrecord⟩ :=
        ih h hhops (not_lt.1 hlong)
      obtain ⟨hlabel, hbytes, hwidth⟩ :=
        wireLabel_at (not_le.1 hend) hzero (not_not.1 hreserved) (not_lt.1 hfits)
      refine ⟨_ :: labels, _ + length, pointers, .label hlabel hbytes ?_, hcount, ?_, hshort, ?_⟩
      · rwa [hwidth, ← Nat.add_assoc]
      · rw [hspelled, hseparated, spell]
        simp only [append_assoc]
      · rw [hrecord, hwidth, ← Nat.add_assoc, ← Nat.add_assoc]

/-! ## What the loop finds -/

theorem WireName.labels_valid (h : WireName packet offset labels length pointers) :
    ∀ label ∈ labels, WireLabel label := by
  induction h with
  | root hbytes => exact nofun
  | label hlabel hbytes hrest ih => exact forall_mem_cons.2 ⟨hlabel, ih⟩
  | pointer htarget hbytes hback hname ih => exact ih

theorem WireName.decodes (h : WireName packet offset labels length pointers) :
    ∀ {fuel : ℕ} {s : NameScan}, s.cursor = offset →
      labels.length + pointers + 1 ≤ fuel → s.hops + pointers ≤ kMaxDnsPointerHops →
      (s.name ++ spell s.firstLabel labels).length ≤ kMaxDnsNameLength →
      decodeNameFrom packet startOffset fuel s = some
        { name := s.name ++ spell s.firstLabel labels
          bytesInRecord := s.recordEnd.getD (offset + length) - startOffset } := by
  induction h with
  | @root offset hbytes =>
    intro fuel s hcursor hfuel hhops hlength
    obtain ⟨fuel, rfl⟩ := Nat.exists_eq_add_of_le' (show 1 ≤ fuel from hfuel)
    obtain ⟨rest, hdrop⟩ := hbytes
    subst hcursor
    have hsize := lt_length_of_drop hdrop.symm (cons_ne_nil _ _)
    have hbyte : packet.getD s.cursor 0 = 0 := getD_of_drop (k := 0) hdrop.symm Nat.one_pos
    rw [length_singleton] at hsize
    rw [decodeNameFrom, if_neg (by omega), hbyte, if_neg (by decide), if_pos rfl, spell, append_nil]
  | @label offset length pointers label labels hlabel hbytes hname ih =>
    intro fuel s hcursor hfuel hhops hlength
    obtain ⟨fuel, rfl⟩ := Nat.exists_eq_add_of_le' (show 1 ≤ fuel by omega)
    obtain ⟨rest, hdrop⟩ := hbytes
    subst hcursor
    have hsize := lt_length_of_drop hdrop.symm (cons_ne_nil _ _)
    have hbyte : packet.getD s.cursor 0 = UInt8.ofNat label.length :=
      getD_of_drop (k := 0) hdrop.symm (Nat.succ_pos _)
    have hspelled : s.name ++ spell s.firstLabel (label :: labels) =
        (s.name ++ (if s.firstLabel then [] else [dot]) ++ toLower label) ++ spell false labels := by
      rw [spell]
      simp only [append_assoc]
    rw [length_encodeLabel] at hsize ih ⊢
    rw [hspelled] at hlength ⊢
    have hshort := (Nat.le_add_right _ _).trans (length_append ▸ hlength)
    rw [decodeNameFrom]
    dsimp only
    rw [if_neg (by omega), hbyte, hlabel.and_c0, if_neg (by decide), if_neg hlabel.byte_ne_zero,
      if_neg (not_not.2 rfl), hlabel.toNat_length, if_neg (by omega),
      take_of_encodeLabel hdrop.symm, separated_eq, if_neg (not_lt.2 hshort)]
    rw [length_cons] at hfuel
    refine (ih ?_ ?_ ?_ ?_).trans ?_
    · exact Nat.add_right_comm _ _ _
    · omega
    · exact hhops
    · exact hlength
    · rw [Nat.add_assoc s.cursor (label.length + 1)]
  | @pointer offset target length pointers labels htarget hbytes hback hname ih =>
    intro fuel s hcursor hfuel hhops hlength
    obtain ⟨fuel, rfl⟩ := Nat.exists_eq_add_of_le' (show 1 ≤ fuel by omega)
    obtain ⟨rest, hdrop⟩ := hbytes
    subst hcursor
    have hsize := lt_length_of_drop hdrop.symm (cons_ne_nil _ _)
    rw [length_encodePointer] at hsize
    have hhigh : packet.getD s.cursor 0 = UInt8.ofNat (0xc0 + target / 256) :=
      getD_of_drop (k := 0) hdrop.symm Nat.two_pos
    have hlow : packet.getD (s.cursor + 1) 0 = UInt8.ofNat (target % 256) :=
      getD_of_drop (k := 1) hdrop.symm Nat.one_lt_two
    have hform : UInt8.ofNat (0xc0 + target / 256) &&& 0xc0 = 0xc0 := by
      rw [and_c0_eq_c0_iff, toNat_pointer_high htarget]
      exact Nat.le_add_right _ _
    rw [decodeNameFrom]
    rw [if_neg (by omega), hhigh, hlow, if_pos hform, if_neg (by omega),
      compressionPointer_encodePointer htarget, if_neg (not_le.2 hback), if_neg (by omega)]
    exact ih rfl (by omega) (by rw [Nat.add_assoc, Nat.add_comm 1]; exact hhops) hlength

theorem decodeName_eq_some_iff {name : List Byte} :
    decodeName packet offset = some { name := name, bytesInRecord := length } ↔
      ∃ labels pointers, WireName packet offset labels length pointers ∧
        pointers ≤ kMaxDnsPointerHops ∧ name = [dot].intercalate (labels.map toLower) ∧
        name.length ≤ kMaxDnsNameLength := by
  constructor
  · intro h
    obtain ⟨labels, own, pointers, hname, hhops, hspelled, hshort, hrecord⟩ :=
      decodeNameFrom_sound _ h (Nat.zero_le _) (Nat.zero_le _)
    rw [nil_append, spell_eq_intercalate] at hspelled
    have hlength : length = offset + own - offset := hrecord
    rw [Nat.add_sub_cancel_left] at hlength
    rw [hlength]
    exact ⟨labels, pointers, hname, (Nat.zero_add _).symm.le.trans hhops, hspelled, hshort⟩
  · rintro ⟨labels, pointers, hname, hhops, rfl, hshort⟩
    rw [← spell_eq_intercalate] at hshort ⊢
    have hlabels := (length_le_spell hname.labels_valid true).trans hshort
    refine (hname.decodes rfl ?_ ?_ ?_).trans ?_
    · omega
    · exact (Nat.zero_add _).le.trans hhops
    · exact hshort
    · show some (NameDecodeResult.mk _ (offset + length - offset)) = _
      rw [Nat.add_sub_cancel_left]
      rfl

/-! ## The bytes in its own place -/

theorem getD_of_prefix_drop {front : List Byte} (h : front <+: packet.drop offset)
    (hfront : front ≠ []) : packet.getD offset 0 = front.headD 0 := by
  obtain ⟨rest, hdrop⟩ := h
  obtain ⟨b, front, rfl⟩ := exists_cons_of_ne_nil hfront
  exact getD_of_drop (k := 0) hdrop.symm (Nat.succ_pos _)

theorem WireName.field (h : WireName packet offset labels length pointers) :
    ∃ field : NameField, field.bytes <+: packet.drop offset ∧ length = field.bytes.length := by
  induction h with
  | root hbytes => exact ⟨.uncompressed [] (nofun), hbytes, rfl⟩
  | @label offset length pointers label labels hlabel hbytes hrest ih =>
    obtain ⟨field, hfield, rfl⟩ := ih
    refine ⟨⟨label :: field.labels, field.pointer,
      forall_mem_cons.2 ⟨hlabel, field.labels_fit⟩, field.pointer_fits⟩, ?_, ?_⟩
    · obtain ⟨rest, hdrop⟩ := hbytes
      rw [drop_add_of_drop hdrop.symm] at hfield
      rw [NameField.bytes_cons, ← hdrop]
      exact (prefix_append_right_inj _).2 hfield
    · rw [NameField.bytes_cons, length_append]
  | @pointer offset target length pointers labels htarget hbytes hback hname ih =>
    refine ⟨⟨[], some target, (nofun), ?_⟩, hbytes, rfl⟩
    intro t ht
    cases ht
    exact htarget

theorem WireName.length_eq {field : NameField} (h : WireName packet offset labels length pointers)
    (hfield : field.bytes <+: packet.drop offset) : length = field.bytes.length := by
  obtain ⟨own, pointer, hown, hpointer⟩ := field
  induction own generalizing offset length labels with
  | nil =>
    cases pointer with
    | none =>
      have hbyte : (packet.getD offset 0).toNat = 0 :=
        congrArg UInt8.toNat (getD_of_prefix_drop hfield (cons_ne_nil _ _))
      cases h with
      | root => rfl
      | label hlabel hbytes hrest =>
        rw [getD_of_prefix_drop hbytes (cons_ne_nil _ _)] at hbyte
        exact absurd (hlabel.toNat_length.symm.trans hbyte) (Nat.one_le_iff_ne_zero.1 hlabel.1)
      | pointer htarget hbytes hback hname =>
        rw [getD_of_prefix_drop hbytes (cons_ne_nil _ _)] at hbyte
        have hhigh := (toNat_pointer_high htarget).symm.trans hbyte
        omega
    | some target =>
      have hhigh := toNat_pointer_high (hpointer target rfl)
      have hbyte : (packet.getD offset 0).toNat = 0xc0 + target / 256 :=
        (congrArg UInt8.toNat (getD_of_prefix_drop hfield (cons_ne_nil _ _))).trans hhigh
      cases h with
      | root hbytes =>
        rw [getD_of_prefix_drop hbytes (cons_ne_nil _ _)] at hbyte
        exact absurd hbyte (by show ¬0 = _; omega)
      | label hlabel hbytes hrest =>
        rw [getD_of_prefix_drop hbytes (cons_ne_nil _ _)] at hbyte
        have hlength := hlabel.toNat_length.symm.trans hbyte
        have hmax : _ ≤ 63 := hlabel.2
        omega
      | pointer htarget hbytes hback hname => rfl
  | cons first own ih =>
    have hfirst := hown first mem_cons_self
    have hmax : first.length ≤ 63 := hfirst.2
    have hbyte : (packet.getD offset 0).toNat = first.length :=
      (congrArg UInt8.toNat (getD_of_prefix_drop hfield (cons_ne_nil _ _))).trans
        hfirst.toNat_length
    cases h with
    | root hbytes =>
      rw [getD_of_prefix_drop hbytes (cons_ne_nil _ _)] at hbyte
      exact absurd hbyte.symm (Nat.one_le_iff_ne_zero.1 hfirst.1)
    | label hlabel hbytes hrest =>
      rw [getD_of_prefix_drop hbytes (cons_ne_nil _ _)] at hbyte
      have hlength := hlabel.toNat_length.symm.trans hbyte
      rw [NameField.bytes_cons] at hfield ⊢
      obtain ⟨rest, hdrop⟩ := hfield
      rw [append_assoc] at hdrop
      have hsame : (encodeLabel first).length = (encodeLabel _).length :=
        congrArg (· + 1) hlength.symm
      rw [← hsame] at hrest ⊢
      rw [length_append, ih hrest (forall_mem_cons.1 hown).2
        ⟨rest, (drop_add_of_drop hdrop.symm).symm⟩]
    | pointer htarget hbytes hback hname =>
      rw [getD_of_prefix_drop hbytes (cons_ne_nil _ _)] at hbyte
      have hhigh := (toNat_pointer_high htarget).symm.trans hbyte
      omega

theorem NameField.length_bytes (field : NameField) : field.bytes.length =
    (field.labels.flatMap encodeLabel).length + if field.pointer.isSome then 2 else 1 := by
  rw [NameField.bytes, length_append]
  cases field.pointer <;> rfl

theorem WireName.within (h : WireName packet offset labels length pointers) :
    offset + length ≤ packet.length := by
  obtain ⟨field, ⟨rest, hdrop⟩, rfl⟩ := h.field
  have hne : field.bytes ≠ [] := by
    rw [← length_pos_iff, field.length_bytes]
    split_ifs <;> omega
  have hsize := lt_length_of_drop hdrop.symm hne
  omega

end

/-! ## Reads -/

/-- The loop of `decodeName` with every read checked against the end of the packet. `none` stands for a
    read outside it, and for a loop that is not finished when the fuel is used up. -/
def decodeNameFromChecked (packet : List Byte) (startOffset : ℕ) : ℕ → NameScan →
    Option (Option NameDecodeResult)
  | 0, _ => none
  | fuel + 1, s =>
    if s.cursor ≥ packet.length then some none
    else
      (packet[s.cursor]?).bind fun lenByte =>
        if lenByte &&& 0xc0 = 0xc0 then
          if s.cursor + 1 ≥ packet.length then some none
          else
            (packet[s.cursor + 1]?).bind fun low =>
              let pointer := (compressionPointer lenByte low).toNat
              let recordEnd := s.recordEnd.getD (s.cursor + 2)
              if pointer ≥ s.cursor then some none
              else if s.hops + 1 > kMaxDnsPointerHops then some none
              else
                decodeNameFromChecked packet startOffset fuel
                  { s with cursor := pointer, recordEnd := some recordEnd, hops := s.hops + 1 }
        else if lenByte = 0 then
          some <| some
            { name := s.name
              bytesInRecord := s.recordEnd.getD (s.cursor + 1) - startOffset }
        else if lenByte &&& 0xc0 ≠ 0 then some none
        else
          let labelStart := s.cursor + 1
          if labelStart + lenByte.toNat > packet.length then some none
          else
            (readBytesChecked packet labelStart lenByte.toNat).bind fun label =>
              let separated := if s.firstLabel then s.name else s.name ++ [dot]
              let name := separated ++ toLower label
              if name.length > kMaxDnsNameLength then some none
              else
                decodeNameFromChecked packet startOffset fuel
                  { s with name := name, cursor := labelStart + lenByte.toNat, firstLabel := false }

def decodeNameChecked (packet : List Byte) (startOffset : ℕ) : Option (Option NameDecodeResult) :=
  decodeNameFromChecked packet startOffset (kMaxDnsNameLength + kMaxDnsPointerHops + 1)
    { cursor := startOffset }

def decodeResourceRecordChecked (packet : List Byte) (offset : ℕ) :
    Option (Option ResourceRecordHeader) :=
  (decodeNameChecked packet offset).bind fun
    | none => some none
    | some name =>
      let cursor := offset + name.bytesInRecord
      if cursor + kFixedFieldsSize > packet.length then some none
      else do
        let type ← readBigEndian16Checked packet cursor
        let rrClass ← readBigEndian16Checked packet (cursor + 2)
        let ttl ← readBigEndian32Checked packet (cursor + 4)
        let rdlength ← readBigEndian16Checked packet (cursor + 8)
        let rdataOffset := cursor + kFixedFieldsSize
        if rdataOffset + rdlength.toNat > packet.length then some none
        else
          some <| some
            { name := name.name
              type := type
              rrClass := rrClass
              ttl := ttl
              rdlength := rdlength
              rdataOffset := rdataOffset
              nextOffset := rdataOffset + rdlength.toNat }

def readIpv4AddressChecked (data : List Byte) (offset : ℕ) : Option Ipv4Address :=
  if offset + 4 ≤ data.length then some (readIpv4Address data offset) else none

def scanAnswersChecked (packet hostname : List Byte) : ℕ → ℕ → Option Ipv4Address →
    Option (Option (ℕ × Option Ipv4Address))
  | 0, cursor, found => some (some (cursor, found))
  | count + 1, cursor, found =>
    (decodeResourceRecordChecked packet cursor).bind fun
      | none => some none
      | some rr =>
        if found.isNone && rr.answers hostname then
          (readIpv4AddressChecked packet rr.rdataOffset).bind fun address =>
            scanAnswersChecked packet hostname count rr.nextOffset (some address)
        else scanAnswersChecked packet hostname count rr.nextOffset found

def skipRecordsChecked (packet : List Byte) : ℕ → ℕ → Option (Option ℕ)
  | 0, cursor => some (some cursor)
  | count + 1, cursor =>
    (decodeResourceRecordChecked packet cursor).bind fun
      | none => some none
      | some rr => skipRecordsChecked packet count rr.nextOffset

def parseRecordsChecked (packet hostname : List Byte) (ancount remaining cursor : ℕ) :
    Option DnsResponseParseResult :=
  (scanAnswersChecked packet hostname ancount cursor none).bind fun
    | none => some { outcome := .malformed }
    | some (cursor, found) =>
      (skipRecordsChecked packet remaining cursor).bind fun
        | none => some { outcome := .malformed }
        | some _ =>
          match found with
          | some address => some { outcome := .resolved, address := some address }
          | none => some { outcome := .noAnswer }

/-- `parseDnsResponse` with every read checked. -/
def parseDnsResponseChecked (bytes : List Byte) (expectedTransactionId : UInt16)
    (expectedHostname : List Byte) : Option DnsResponseParseResult :=
  if bytes.length < kDnsHeaderSize ∨ bytes.length > kMaxDnsMessageSize then
    some { outcome := .malformed }
  else do
    let id ← readBigEndian16Checked bytes 0
    let flags1 ← bytes[2]?
    let flags2 ← bytes[3]?
    let qr := flags1 &&& 0x80 ≠ 0
    let opcode := (flags1 >>> 3) &&& 0x0f
    let tc := flags1 &&& 0x02 ≠ 0
    let rcode := flags2 &&& 0x0f
    let qdcount ← readBigEndian16Checked bytes 4
    let ancount ← readBigEndian16Checked bytes 6
    let nscount ← readBigEndian16Checked bytes 8
    let arcount ← readBigEndian16Checked bytes 10
    if ¬qr then some { outcome := .malformed }
    else if opcode ≠ 0 then some { outcome := .malformed }
    else if qdcount ≠ 1 then some { outcome := .malformed }
    else if ancount.toNat + nscount.toNat + arcount.toNat > kMaxDnsRecordCount then
      some { outcome := .malformed }
    else
      (decodeNameChecked bytes kDnsHeaderSize).bind fun
        | none => some { outcome := .malformed }
        | some qname =>
          let cursor := kDnsHeaderSize + qname.bytesInRecord
          if cursor + 4 > bytes.length then some { outcome := .malformed }
          else do
            let qtype ← readBigEndian16Checked bytes cursor
            let qclass ← readBigEndian16Checked bytes (cursor + 2)
            if id ≠ expectedTransactionId then some { outcome := .wrongTransaction }
            else if qname.name ≠ expectedHostname ∨ qtype ≠ 1 ∨ qclass ≠ 1 then
              some { outcome := .wrongQuestion }
            else if tc then some { outcome := .truncated }
            else if rcode = 3 then some { outcome := .nxDomain }
            else if rcode = 5 then some { outcome := .refused }
            else if rcode = 2 then some { outcome := .serverFailure }
            else if rcode ≠ 0 then some { outcome := .malformed }
            else
              parseRecordsChecked bytes expectedHostname ancount.toNat
                (nscount.toNat + arcount.toNat) (cursor + 4)

theorem decodeNameFromChecked_eq {startOffset : ℕ} (fuel : ℕ) :
    ∀ {s : NameScan}, s.hops ≤ kMaxDnsPointerHops → s.name.length ≤ kMaxDnsNameLength →
      (kMaxDnsNameLength - s.name.length) + (kMaxDnsPointerHops - s.hops) + 1 ≤ fuel →
      decodeNameFromChecked packet startOffset fuel s =
        some (decodeNameFrom packet startOffset fuel s) := by
  induction fuel with
  | zero =>
    intro s hhops hname hfuel
    omega
  | succ fuel ih =>
    intro s hhops hname hfuel
    rw [decodeNameFromChecked, decodeNameFrom]
    dsimp only
    by_cases hend : s.cursor ≥ packet.length
    · rw [if_pos hend, if_pos hend]
    rw [if_neg hend, if_neg hend, getElem?_eq_some_getD (not_le.1 hend), bind_some]
    generalize packet.getD s.cursor 0 = lenByte
    by_cases hform : lenByte &&& 0xc0 = 0xc0
    · rw [if_pos hform, if_pos hform]
      by_cases hlow : s.cursor + 1 ≥ packet.length
      · rw [if_pos hlow, if_pos hlow]
      rw [if_neg hlow, if_neg hlow, getElem?_eq_some_getD (not_le.1 hlow), bind_some]
      split_ifs with hback hmore
      · rfl
      · rfl
      · exact ih (not_lt.1 hmore) hname (by dsimp only; omega)
    rw [if_neg hform, if_neg hform]
    by_cases hzero : lenByte = 0
    · rw [if_pos hzero, if_pos hzero]
    rw [if_neg hzero, if_neg hzero]
    by_cases hreserved : lenByte &&& 0xc0 ≠ 0
    · rw [if_pos hreserved, if_pos hreserved]
    rw [if_neg hreserved, if_neg hreserved]
    by_cases hfits : s.cursor + 1 + lenByte.toNat > packet.length
    · rw [if_pos hfits, if_pos hfits]
    rw [if_neg hfits, if_neg hfits, readBytesChecked_eq (not_lt.1 hfits), bind_some, separated_eq]
    -- a label has at least one byte
    have hpos : lenByte.toNat ≠ 0 := fun h => hzero (UInt8.toNat_inj.1 h)
    have hgrows : s.name.length + 1 ≤ ((s.name ++ if s.firstLabel then [] else [dot]) ++
        toLower ((packet.drop (s.cursor + 1)).take lenByte.toNat)).length := by
      rw [length_append, length_append, length_toLower, length_take, length_drop]
      omega
    generalize (s.name ++ if s.firstLabel then [] else [dot]) ++
      toLower ((packet.drop (s.cursor + 1)).take lenByte.toNat) = name at hgrows ⊢
    split_ifs with hlong
    · rfl
    · exact ih hhops (not_lt.1 hlong) (by dsimp only; omega)

theorem decodeNameChecked_eq (packet : List Byte) (offset : ℕ) :
    decodeNameChecked packet offset = some (decodeName packet offset) :=
  decodeNameFromChecked_eq _ (Nat.zero_le _) (Nat.zero_le _) le_rfl

theorem decodeResourceRecordChecked_eq (packet : List Byte) (offset : ℕ) :
    decodeResourceRecordChecked packet offset = some (decodeResourceRecord packet offset) := by
  unfold decodeResourceRecordChecked decodeResourceRecord
  rw [decodeNameChecked_eq, bind_some]
  cases decodeName packet offset with
  | none => rfl
  | some name =>
    dsimp only
    by_cases hfixed : offset + name.bytesInRecord + kFixedFieldsSize > packet.length
    · rw [if_pos hfixed, if_pos hfixed]
    have hsize : offset + name.bytesInRecord + 10 ≤ packet.length := not_lt.1 hfixed
    rw [if_neg hfixed, if_neg hfixed, readBigEndian16Checked_eq (by omega),
      readBigEndian16Checked_eq (by omega), readBigEndian32Checked_eq (by omega),
      readBigEndian16Checked_eq (by omega), apply_ite some]
    rfl

theorem within_of_decodeResourceRecord {rr : ResourceRecordHeader}
    (h : decodeResourceRecord packet offset = some rr) :
    rr.rdataOffset + rr.rdlength.toNat ≤ packet.length := by
  unfold decodeResourceRecord at h
  cases hname : decodeName packet offset with
  | none =>
    simp [hname] at h
  | some name =>
    rw [hname] at h
    dsimp only at h
    split_ifs at h with hfixed hdata
    cases h
    exact not_lt.1 hdata

theorem scanAnswersChecked_eq (packet hostname : List Byte) (count : ℕ) :
    ∀ cursor found, scanAnswersChecked packet hostname count cursor found =
      some (scanAnswers packet hostname count cursor found) := by
  induction count with
  | zero => exact fun _ _ => rfl
  | succ count ih =>
    intro cursor found
    rw [scanAnswersChecked, scanAnswers, decodeResourceRecordChecked_eq, bind_some]
    cases hrr : decodeResourceRecord packet cursor with
    | none => rfl
    | some rr =>
      dsimp only
      by_cases htaken : (found.isNone && rr.answers hostname) = true
      · -- the record was found to lie within the packet, and its data to be four bytes
        have hwithin := within_of_decodeResourceRecord hrr
        have hfour : rr.rdlength = 4 := by
          have hanswers := (Bool.and_eq_true_iff.1 htaken).2
          simp only [ResourceRecordHeader.answers, Bool.and_eq_true_iff, beq_iff_eq] at hanswers
          exact hanswers.1.2
        rw [hfour] at hwithin
        have hread : readIpv4AddressChecked packet rr.rdataOffset =
            some (readIpv4Address packet rr.rdataOffset) := if_pos hwithin
        rw [if_pos htaken, if_pos htaken, hread, bind_some, ih]
      · rw [if_neg htaken, if_neg htaken, ih]

theorem skipRecordsChecked_eq (packet : List Byte) (count : ℕ) :
    ∀ cursor, skipRecordsChecked packet count cursor = some (skipRecords packet count cursor) := by
  induction count with
  | zero => exact fun _ => rfl
  | succ count ih =>
    intro cursor
    rw [skipRecordsChecked, skipRecords, decodeResourceRecordChecked_eq, bind_some]
    cases decodeResourceRecord packet cursor with
    | none => rfl
    | some rr => exact ih rr.nextOffset

theorem parseRecordsChecked_eq (packet hostname : List Byte) (ancount remaining cursor : ℕ) :
    parseRecordsChecked packet hostname ancount remaining cursor =
      some (parseRecords packet hostname ancount remaining cursor) := by
  unfold parseRecordsChecked parseRecords
  rw [scanAnswersChecked_eq, bind_some]
  cases scanAnswers packet hostname ancount cursor none with
  | none => rfl
  | some scanned =>
    obtain ⟨cursor, found⟩ := scanned
    dsimp only
    rw [skipRecordsChecked_eq, bind_some]
    cases skipRecords packet remaining cursor with
    | none => rfl
    | some finish =>
      cases found with
      | none | some address => rfl

theorem parseDnsResponseChecked_eq (bytes : List Byte) (transactionId : UInt16)
    (hostname : List Byte) : parseDnsResponseChecked bytes transactionId hostname =
      some (parseDnsResponse bytes transactionId hostname) := by
  unfold parseDnsResponseChecked parseDnsResponse
  by_cases hsize : bytes.length < kDnsHeaderSize ∨ bytes.length > kMaxDnsMessageSize
  · rw [if_pos hsize, if_pos hsize]
  have hheader : 12 ≤ bytes.length := not_lt.1 (not_or.1 hsize).1
  rw [if_neg hsize, if_neg hsize, readBigEndian16Checked_eq (by omega),
    getElem?_eq_some_getD (by omega), getElem?_eq_some_getD (by omega),
    readBigEndian16Checked_eq (by omega), readBigEndian16Checked_eq (by omega),
    readBigEndian16Checked_eq (by omega), readBigEndian16Checked_eq (by omega)]
  dsimp only [bind, bind_some]
  rw [decodeNameChecked_eq, bind_some]
  simp only [apply_ite some]
  cases decodeName bytes kDnsHeaderSize with
  | none => rfl
  | some qname =>
    dsimp only
    by_cases hquestion : kDnsHeaderSize + qname.bytesInRecord + 4 > bytes.length
    · rw [if_pos hquestion, if_pos hquestion]
    rw [if_neg hquestion, if_neg hquestion, readBigEndian16Checked_eq (by omega),
      readBigEndian16Checked_eq (by omega)]
    simp only [bind_some, parseRecordsChecked_eq, apply_ite some]

/-! ## The decoder -/

/-- **`decodeName` is exact, terminating and in bounds.** The checked loop finishes with the same
    result; a name is returned exactly where one can be read, with the number of bytes it takes up in
    its own place, which lie within the packet and are the same wherever a pointer leads; and the
    parser of responses reads nothing outside its input. -/
theorem decodeName_exact (packet : List Byte) (offset : ℕ) :
    decodeNameChecked packet offset = some (decodeName packet offset) ∧
    (∀ name length, decodeName packet offset = some ⟨name, length⟩ ↔
      ∃ labels pointers, WireName packet offset labels length pointers ∧
        pointers ≤ kMaxDnsPointerHops ∧ name = [dot].intercalate (labels.map toLower) ∧
        name.length ≤ kMaxDnsNameLength) ∧
    (∀ name length, decodeName packet offset = some ⟨name, length⟩ →
      offset + length ≤ packet.length ∧
      ∃ field : NameField, field.bytes <+: packet.drop offset ∧ length = field.bytes.length ∧
        ∀ (field' : NameField) (packet' : List Byte) (offset' : ℕ) (name' : List Byte) (length' : ℕ),
          field'.labels = field.labels → field'.pointer.isSome = field.pointer.isSome →
          field'.bytes <+: packet'.drop offset' →
          decodeName packet' offset' = some ⟨name', length'⟩ → length' = length) ∧
    ∀ transactionId hostname, parseDnsResponseChecked packet transactionId hostname =
      some (parseDnsResponse packet transactionId hostname) := by
  refine ⟨decodeNameChecked_eq packet offset, fun _ _ => decodeName_eq_some_iff, ?_,
    parseDnsResponseChecked_eq packet⟩
  intro name length h
  obtain ⟨labels, pointers, hname, -⟩ := decodeName_eq_some_iff.1 h
  obtain ⟨field, hfield, rfl⟩ := hname.field
  refine ⟨hname.within, field, hfield, rfl, ?_⟩
  intro field' packet' offset' name' length' hlabels hpointer hfield' h'
  obtain ⟨labels', pointers', hname', -⟩ := decodeName_eq_some_iff.1 h'
  rw [hname'.length_eq hfield', field'.length_bytes, field.length_bytes, hlabels, hpointer]

/-- A pointer to the name `A`, behind that name. -/
theorem decodeName_exact_example :
    decodeName [0x01, 0x41, 0x00, 0xc0, 0x00] 3 = some ⟨ascii "a", 2⟩ ∧
    ∃ labels pointers, WireName [0x01, 0x41, 0x00, 0xc0, 0x00] 3 labels 2 pointers ∧
      pointers ≤ kMaxDnsPointerHops ∧ ascii "a" = [dot].intercalate (labels.map toLower) ∧
      (ascii "a").length ≤ kMaxDnsNameLength := by
  have hdecoded : decodeName [0x01, 0x41, 0x00, 0xc0, 0x00] 3 = some ⟨ascii "a", 2⟩ := by
    decide +kernel
  exact ⟨hdecoded, ((decodeName_exact _ 3).2.1 _ _).1 hdecoded⟩

end Wirestack
