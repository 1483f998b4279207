import Wirestack.Wire.Reads

set_option autoImplicit false

/-! # The grammar of TCP options

`parseTcpOptions` is an index-based scan over bytes that a peer chooses. The grammar it implements is
stated over items: No-Operations and options with a kind, a length and a value. `Splits` says that
bytes are items up to the end of the string or an End-of-List, `Legal` which items may stand together,
and `optionsOf` what they mean. The scan and the grammar meet in `parseTcpOptions_of_splits` (the scan
of bytes that split folds over the items) and `splits_of_parse` (whatever the scan accepts splits). -/

namespace Wirestack

open List Option

variable {rest tail : List Byte}

variable {data data' options : List Byte} {i j : ℕ}

/-! ## Items -/

/-- An option with a length byte. Its kind is not one of the two that have none. -/
structure TcpOption where
  kind : Byte
  value : List Byte
  notEnd : kind ≠ kOptionKindEndOfList
  notNop : kind ≠ kOptionKindNoOperation
  fits : value.length + 2 < 256
  deriving DecidableEq

variable {o : TcpOption}

inductive TcpOptionItem where
  | noOperation
  | option (o : TcpOption)
  deriving DecidableEq

variable {items : List TcpOptionItem}

def TcpOption.length (o : TcpOption) : ℕ := o.value.length + 2

def TcpOption.bytes (o : TcpOption) : List Byte := o.kind :: UInt8.ofNat o.length :: o.value

def TcpOptionItem.bytes : TcpOptionItem → List Byte
  | .noOperation => [kOptionKindNoOperation]
  | .option o => o.bytes

/-- The value, if this is an option of the given kind. -/
def TcpOptionItem.valueFor (kind : Byte) : TcpOptionItem → Option (List Byte)
  | .noOperation => none
  | .option o => if o.kind = kind then some o.value else none

/-- What may stand behind the last item. -/
def EndsOptions (tail : List Byte) : Prop := tail = [] ∨ tail.head? = some kOptionKindEndOfList

/-- The bytes up to the first End-of-List, or the end, are these items. -/
def Splits (options : List Byte) (items : List TcpOptionItem) : Prop :=
  ∃ tail, options = items.flatMap TcpOptionItem.bytes ++ tail ∧ EndsOptions tail

/-! ## What may stand together, and what it means -/

def valuesOf (kind : Byte) (items : List TcpOptionItem) : List (List Byte) :=
  items.filterMap (TcpOptionItem.valueFor kind)

/-- The kinds that the scan interprets. -/
def knownKinds : List Byte :=
  [kOptionKindMss, kOptionKindWindowScale, kOptionKindSackPermitted, kOptionKindSack]

/-- The length, and for the MSS the value, that the kind of an option requires. -/
def TcpOption.Allowed (o : TcpOption) : Prop :=
  if o.kind = kOptionKindMss then o.length = 4 ∧ readBigEndian16 o.value 0 ≠ 0
  else if o.kind = kOptionKindWindowScale then o.length = 3
  else if o.kind = kOptionKindSackPermitted then o.length = 2
  else if o.kind = kOptionKindSack then
    o.length = 10 ∨ o.length = 18 ∨ o.length = 26 ∨ o.length = 34
  else True

/-- Items that may stand together: at most one option of each known kind, and each as its kind
    requires. -/
structure Legal (items : List TcpOptionItem) : Prop where
  once : ∀ kind ∈ knownKinds, (valuesOf kind items).length ≤ 1
  allowed : ∀ o, .option o ∈ items → o.Allowed

def sackBlocksOf (value : List Byte) : List TcpSackBlock :=
  (range (value.length / 8)).map fun b =>
    ⟨readBigEndian32 value (b * 8), readBigEndian32 value (b * 8 + 4)⟩

def optionsOf (items : List TcpOptionItem) : TcpParsedOptions :=
  { maximumSegmentSize := (valuesOf kOptionKindMss items).head?.map (readBigEndian16 · 0)
    windowScale := (valuesOf kOptionKindWindowScale items).head?.map (·.getD 0 0)
    sackPermitted := !(valuesOf kOptionKindSackPermitted items).isEmpty
    sackBlocks := (valuesOf kOptionKindSack items).flatMap sackBlocksOf }

/-! ## The scan of bytes that split -/

/-- What the scan does at an item. -/
def TcpOption.absorb (o : TcpOption) (parsed : TcpParsedOptions) :
    Except TcpOptionParseError TcpParsedOptions :=
  parseTcpOption o.bytes o.kind 0 o.length parsed

def TcpOptionItem.absorb (parsed : TcpParsedOptions) :
    TcpOptionItem → Except TcpOptionParseError TcpParsedOptions
  | .noOperation => .ok parsed
  | .option o => o.absorb parsed

theorem readBigEndian16_congr (h : ∀ k < 2, data.getD (i + k) 0 = data'.getD (j + k) 0) :
    readBigEndian16 data i = readBigEndian16 data' j := by
  have h₀ := h 0 (by omega)
  have h₁ := h 1 (by omega)
  unfold readBigEndian16
  rw [h₁, show data.getD i 0 = data'.getD j 0 from h₀]

theorem readBigEndian32_congr (h : ∀ k < 4, data.getD (i + k) 0 = data'.getD (j + k) 0) :
    readBigEndian32 data i = readBigEndian32 data' j := by
  have h₀ := h 0 (by omega)
  unfold readBigEndian32
  rw [h 1 (by omega), h 2 (by omega), h 3 (by omega), show data.getD i 0 = data'.getD j 0 from h₀]

theorem parseTcpOption_congr {length : ℕ}
    (h : ∀ k < length, data.getD (i + k) 0 = data'.getD (j + k) 0) (kind : Byte)
    (parsed : TcpParsedOptions) :
    parseTcpOption data kind i length parsed = parseTcpOption data' kind j length parsed := by
  have hmss : length = 4 → readBigEndian16 data (i + 2) = readBigEndian16 data' (j + 2) := by
    intro hlen
    refine readBigEndian16_congr fun k hk => ?_
    rw [Nat.add_assoc, Nat.add_assoc]
    exact h (2 + k) (by omega)
  have hscale : length = 3 → data.getD (i + 2) 0 = data'.getD (j + 2) 0 :=
    fun hlen => h 2 (by omega)
  have hsack : (range ((length - 2) / 8)).map (readSackBlock data i) =
      (range ((length - 2) / 8)).map (readSackBlock data' j) := by
    refine map_congr_left fun b hb => ?_
    have hb := mem_range.1 hb
    have hblock : ∀ n, n + 4 ≤ 8 →
        readBigEndian32 data (i + 2 + b * 8 + n) = readBigEndian32 data' (j + 2 + b * 8 + n) := by
      intro n hn
      refine readBigEndian32_congr fun k hk => ?_
      rw [show i + 2 + b * 8 + n + k = i + (2 + b * 8 + n + k) by omega,
        show j + 2 + b * 8 + n + k = j + (2 + b * 8 + n + k) by omega]
      exact h _ (by omega)
    unfold readSackBlock
    rw [hblock 4 (by omega), show readBigEndian32 data (i + 2 + b * 8) =
      readBigEndian32 data' (j + 2 + b * 8) from hblock 0 (by omega)]
  unfold parseTcpOption
  by_cases hkind : kind = kOptionKindMss
  · rw [if_pos hkind, if_pos hkind]
    by_cases hlen : length = 4
    · rw [hmss hlen]
    · rw [if_pos hlen, if_pos hlen]
  · rw [if_neg hkind, if_neg hkind]
    by_cases hkind : kind = kOptionKindWindowScale
    · rw [if_pos hkind, if_pos hkind]
      by_cases hlen : length = 3
      · rw [hscale hlen]
      · rw [if_pos hlen, if_pos hlen]
    · rw [if_neg hkind, if_neg hkind, hsack]

theorem TcpOption.toNat_length (o : TcpOption) : (UInt8.ofNat o.length).toNat = o.length := by
  rw [UInt8.toNat_ofNat']
  exact Nat.mod_eq_of_lt o.fits

theorem TcpOption.length_bytes (o : TcpOption) : o.bytes.length = o.length := rfl

theorem parseTcpOptionsFrom_option (h : options.drop i = o.bytes ++ rest) (fuel : ℕ)
    (parsed : TcpParsedOptions) : parseTcpOptionsFrom options (fuel + 1) i parsed =
      (o.absorb parsed).bind (parseTcpOptionsFrom options fuel (i + o.length)) := by
  have hsize := lt_length_of_drop h (cons_ne_nil _ _)
  rw [o.length_bytes] at hsize
  have hlength : 2 ≤ o.length := Nat.le_add_left ..
  have hkind : options.getD i 0 = o.kind := getD_of_drop h (Nat.succ_pos _)
  have hdeclared : (options.getD (i + 1) 0).toNat = o.length := by
    rw [getD_of_drop h (show 1 < o.bytes.length from hlength)]
    exact o.toNat_length
  have habsorb : parseTcpOption options o.kind i o.length parsed = o.absorb parsed := by
    refine parseTcpOption_congr (fun k hk => ?_) o.kind parsed
    rw [getD_of_drop h hk, Nat.zero_add]
  rw [parseTcpOptionsFrom, if_pos (by omega)]
  rw [hkind, hdeclared, if_neg o.notEnd, if_neg o.notNop, if_neg (by omega), if_neg (by omega),
    if_neg (by omega), habsorb]
  cases o.absorb parsed <;> rfl

theorem parseTcpOptionsFrom_noOperation (h : options.drop i = [kOptionKindNoOperation] ++ rest)
    (fuel : ℕ) (parsed : TcpParsedOptions) : parseTcpOptionsFrom options (fuel + 1) i parsed =
      parseTcpOptionsFrom options fuel (i + 1) parsed := by
  have hsize := lt_length_of_drop h (cons_ne_nil _ _)
  rw [length_singleton] at hsize
  have hkind : options.getD i 0 = kOptionKindNoOperation := getD_of_drop h (Nat.succ_pos _)
  rw [parseTcpOptionsFrom, if_pos (by omega), hkind, if_neg (by decide), if_pos rfl]

theorem parseTcpOptionsFrom_end (h : EndsOptions (options.drop i)) (fuel : ℕ)
    (parsed : TcpParsedOptions) : parseTcpOptionsFrom options fuel i parsed = .ok parsed := by
  cases fuel with
  | zero => rfl
  | succ fuel =>
    rw [parseTcpOptionsFrom]
    rcases h with hnil | hend
    · rw [if_neg (not_lt.2 (drop_eq_nil_iff.1 hnil))]
    · obtain ⟨rest, hdrop⟩ := head?_eq_some_iff.1 hend
      have hkind : options.getD i 0 = kOptionKindEndOfList :=
        getD_of_drop (show options.drop i = [kOptionKindEndOfList] ++ rest from hdrop)
          (Nat.succ_pos _)
      rw [hkind, if_pos rfl, ite_self]

theorem parseTcpOptionsFrom_items (htail : EndsOptions tail) (items : List TcpOptionItem) :
    ∀ {fuel i : ℕ} (parsed : TcpParsedOptions),
    options.drop i = items.flatMap TcpOptionItem.bytes ++ tail → options.length ≤ i + fuel →
    parseTcpOptionsFrom options fuel i parsed = items.foldlM TcpOptionItem.absorb parsed := by
  induction items with
  | nil =>
    intro fuel i parsed h _
    refine parseTcpOptionsFrom_end ?_ fuel parsed
    rwa [h]
  | cons item items ih =>
    intro fuel i parsed h hfuel
    rw [flatMap_cons, append_assoc] at h
    rw [foldlM_cons]
    have hne : item.bytes ≠ [] := by cases item <;> exact cons_ne_nil _ _
    have hsize := lt_length_of_drop h hne
    have hpos := length_pos_iff.2 hne
    have hdrop : options.drop (i + item.bytes.length) =
        items.flatMap TcpOptionItem.bytes ++ tail := by
      rw [← drop_drop, h, drop_left]
    obtain ⟨fuel, rfl⟩ : ∃ n, fuel = n + 1 := Nat.exists_eq_add_one.2 (by omega)
    cases item with
    | noOperation =>
      rw [parseTcpOptionsFrom_noOperation h]
      exact ih parsed hdrop (by omega)
    | option o =>
      rw [parseTcpOptionsFrom_option h]
      show (o.absorb parsed).bind _ = (o.absorb parsed).bind _
      refine congrArg _ (funext fun parsed => ih parsed hdrop ?_)
      have hlength : 2 ≤ o.length := Nat.le_add_left ..
      omega

theorem parseTcpOptions_of_splits (h : Splits options items) :
    parseTcpOptions options = items.foldlM TcpOptionItem.absorb {} := by
  obtain ⟨tail, hoptions, htail⟩ := h
  exact parseTcpOptionsFrom_items htail items {} hoptions (Nat.zero_add _).ge

/-! ## Whatever is accepted splits -/

theorem Splits.cons (item : TcpOptionItem) (h : Splits options items) :
    Splits (item.bytes ++ options) (item :: items) := by
  obtain ⟨tail, rfl, htail⟩ := h
  exact ⟨tail, by rw [flatMap_cons, append_assoc], htail⟩

theorem splits_nil (h : options.length ≤ i) :
    Splits (options.drop i) [] := ⟨options.drop i, rfl, .inl (drop_eq_nil_iff.2 h)⟩

theorem option_of_drop (hi : i + 1 < options.length)
    (hend : options.getD i 0 ≠ kOptionKindEndOfList)
    (hnop : options.getD i 0 ≠ kOptionKindNoOperation) (hshort : 2 ≤ (options.getD (i + 1) 0).toNat)
    (hfits : i + (options.getD (i + 1) 0).toNat ≤ options.length) :
    ∃ o : TcpOption, options.drop i =
      o.bytes ++ options.drop (i + (options.getD (i + 1) 0).toNat) := by
  have hdrop : options.drop i =
      options.getD i 0 :: options.getD (i + 1) 0 :: options.drop (i + 2) := by
    rw [drop_eq_getD_cons (by omega), drop_eq_getD_cons hi]
  have hbyte := (options.getD (i + 1) 0).toNat_lt
  have hdeclared : UInt8.ofNat (options.getD (i + 1) 0).toNat = options.getD (i + 1) 0 :=
    UInt8.ofNat_toNat
  generalize (options.getD (i + 1) 0).toNat = n at hshort hfits hbyte hdeclared ⊢
  have hvalue : ((options.drop (i + 2)).take (n - 2)).length + 2 = n := by
    rw [length_take, length_drop]
    omega
  refine ⟨⟨options.getD i 0, (options.drop (i + 2)).take (n - 2), hend, hnop, by omega⟩, ?_⟩
  have hrest : options.drop (i + n) = (options.drop (i + 2)).drop (n - 2) := by
    rw [drop_drop, show i + 2 + (n - 2) = i + n by omega]
  show _ = options.getD i 0 :: UInt8.ofNat (((options.drop (i + 2)).take (n - 2)).length + 2) ::
    ((options.drop (i + 2)).take (n - 2) ++ options.drop (i + n))
  rw [hdrop, hvalue, hdeclared, hrest, take_append_drop]

theorem splits_of_parseFrom (fuel : ℕ) :
    ∀ {i : ℕ} {parsed parsed' : TcpParsedOptions}, options.length ≤ i + fuel →
    parseTcpOptionsFrom options fuel i parsed = .ok parsed' →
    ∃ items, Splits (options.drop i) items := by
  induction fuel with
  | zero => exact fun hfuel _ => ⟨[], splits_nil hfuel⟩
  | succ fuel ih =>
    intro i parsed parsed' hfuel h
    rw [parseTcpOptionsFrom] at h
    dsimp only at h
    by_cases hi : i < options.length
    · rw [if_pos hi] at h
      split_ifs at h with hend hnop hmissing hshort hfits
      · refine ⟨[], options.drop i, rfl, .inr ?_⟩
        rw [drop_eq_getD_cons hi, hend]
        rfl
      · obtain ⟨items, hitems⟩ := ih (by omega) h
        refine ⟨.noOperation :: items, ?_⟩
        rw [drop_eq_getD_cons hi, hnop]
        exact hitems.cons .noOperation
      · split at h
        · cases h
        · next parsed₁ _ =>
          obtain ⟨o, hdrop⟩ := option_of_drop (not_le.1 hmissing) hend hnop (not_lt.1 hshort)
            (not_lt.1 hfits)
          obtain ⟨items, hitems⟩ := ih (by omega) h
          refine ⟨.option o :: items, ?_⟩
          rw [hdrop]
          exact hitems.cons (.option o)
    · exact ⟨[], splits_nil (not_lt.1 hi)⟩

theorem splits_of_parse {parsed : TcpParsedOptions} (h : parseTcpOptions options = .ok parsed) :
    ∃ items, Splits options items :=
  splits_of_parseFrom options.length (Nat.zero_add _).ge h

/-! ## Which items the fold accepts -/

theorem valuesOf_append (kind : Byte) (items items' : List TcpOptionItem) :
    valuesOf kind (items ++ items') = valuesOf kind items ++ valuesOf kind items' :=
  filterMap_append

theorem valuesOf_option (kind : Byte) (o : TcpOption) :
    valuesOf kind [.option o] = if o.kind = kind then [o.value] else [] := by
  unfold valuesOf TcpOptionItem.valueFor
  split_ifs with h <;> simp [h]

theorem legal_nil : Legal [] := ⟨fun _ _ => Nat.zero_le _, nofun⟩

theorem valuesOf_snoc_noOperation (kind : Byte) (items : List TcpOptionItem) :
    valuesOf kind (items ++ [.noOperation]) = valuesOf kind items := by
  rw [valuesOf_append]
  exact append_nil _

theorem legal_snoc_noOperation : Legal (items ++ [.noOperation]) ↔ Legal items := by
  constructor
  · intro h
    refine ⟨fun kind hkind => ?_, fun o ho => h.allowed o (mem_append_left _ ho)⟩
    rw [← valuesOf_snoc_noOperation]
    exact h.once kind hkind
  · intro h
    refine ⟨fun kind hkind => ?_, fun o ho => ?_⟩
    · rw [valuesOf_snoc_noOperation]
      exact h.once kind hkind
    · exact h.allowed o (by simpa using ho)

theorem legal_snoc_option : Legal (items ++ [.option o]) ↔
      Legal items ∧ o.Allowed ∧ (o.kind ∈ knownKinds → valuesOf o.kind items = []) := by
  have hvalues : ∀ kind, valuesOf kind (items ++ [.option o]) =
      valuesOf kind items ++ if o.kind = kind then [o.value] else [] := fun kind => by
    rw [valuesOf_append, valuesOf_option]
  constructor
  · intro h
    refine ⟨⟨fun kind hkind => ?_, fun o' ho' => h.allowed o' (mem_append_left _ ho')⟩,
      h.allowed o (mem_append_right _ (mem_singleton_self _)), fun hkind => ?_⟩
    · have hlen := h.once kind hkind
      rw [hvalues, length_append] at hlen
      omega
    · have hlen := h.once o.kind hkind
      rw [hvalues, if_pos rfl, length_append, length_singleton] at hlen
      exact eq_nil_of_length_eq_zero (by omega)
  · rintro ⟨h, hallowed, hnew⟩
    refine ⟨fun kind hkind => ?_, fun o' ho' => ?_⟩
    · rw [hvalues]
      split_ifs with hsame
      · subst hsame
        rw [hnew hkind]
        exact le_rfl
      · rw [append_nil]
        exact h.once kind hkind
    · rcases mem_append.1 ho' with ho' | ho'
      · exact h.allowed o' ho'
      · cases mem_singleton.1 ho'
        exact hallowed

/-- The scan has stored an option of this kind before. It looks at the stored value, not at the
    bytes. -/
def TcpOption.stored (o : TcpOption) (parsed : TcpParsedOptions) : Bool :=
  if o.kind = kOptionKindMss then parsed.maximumSegmentSize.isSome
  else if o.kind = kOptionKindWindowScale then parsed.windowScale.isSome
  else if o.kind = kOptionKindSackPermitted then parsed.sackPermitted
  else if o.kind = kOptionKindSack then !parsed.sackBlocks.isEmpty
  else false

def TcpOption.store (o : TcpOption) (parsed : TcpParsedOptions) : TcpParsedOptions :=
  if o.kind = kOptionKindMss then
    { parsed with maximumSegmentSize := some (readBigEndian16 o.value 0) }
  else if o.kind = kOptionKindWindowScale then
    { parsed with windowScale := some (o.value.getD 0 0) }
  else if o.kind = kOptionKindSackPermitted then { parsed with sackPermitted := true }
  else if o.kind = kOptionKindSack then { parsed with sackBlocks := sackBlocksOf o.value }
  else parsed

theorem map_readSackBlock_bytes (o : TcpOption) :
    (range ((o.length - 2) / 8)).map (readSackBlock o.bytes 0) = sackBlocksOf o.value := by
  unfold sackBlocksOf
  refine map_congr_left fun b _ => ?_
  have hread : ∀ n, readBigEndian32 o.bytes (0 + 2 + n) = readBigEndian32 o.value n := by
    intro n
    refine readBigEndian32_congr fun k _ => ?_
    rw [show 0 + 2 + n + k = n + k + 1 + 1 by omega]
    rfl
  rw [readSackBlock, Nat.add_assoc (0 + 2), hread, hread]

theorem ite_error_eq_ok {ε α : Type} {p : Prop} [Decidable p] {e : ε} {x : Except ε α} {v : α} :
    (if p then .error e else x) = .ok v ↔ ¬ p ∧ x = .ok v := by
  split_ifs with h <;> simp [h]

theorem TcpOption.absorb_eq_ok_iff (o : TcpOption) (parsed v : TcpParsedOptions) :
    o.absorb parsed = .ok v ↔ o.Allowed ∧ o.stored parsed = false ∧ v = o.store parsed := by
  have hmss : readBigEndian16 o.bytes (0 + 2) = readBigEndian16 o.value 0 := rfl
  have hscale : o.bytes.getD (0 + 2) 0 = o.value.getD 0 0 := rfl
  unfold TcpOption.absorb parseTcpOption TcpOption.Allowed TcpOption.stored TcpOption.store
  rw [hmss, hscale, map_readSackBlock_bytes]
  by_cases hkind : o.kind = kOptionKindMss
  · simp only [if_pos hkind, ite_error_eq_ok, Except.ok.injEq, not_not, Bool.not_eq_true,
      eq_comm (b := v)]
    tauto
  by_cases hkind' : o.kind = kOptionKindWindowScale
  · simp only [if_neg hkind, if_pos hkind', ite_error_eq_ok, Except.ok.injEq, not_not,
      Bool.not_eq_true, eq_comm (b := v)]
  by_cases hkind'' : o.kind = kOptionKindSackPermitted
  · simp only [if_neg hkind, if_neg hkind', if_pos hkind'', ite_error_eq_ok, Except.ok.injEq,
      not_not, Bool.not_eq_true, eq_comm (b := v)]
  by_cases hsack : o.kind = kOptionKindSack
  · simp only [if_neg hkind, if_neg hkind', if_neg hkind'', if_pos hsack, ite_error_eq_ok,
      Except.ok.injEq, not_and_or, not_not, Bool.not_eq_true, eq_comm (b := v)]
  · simp only [if_neg hkind, if_neg hkind', if_neg hkind'', if_neg hsack, Except.ok.injEq, true_and,
      eq_comm (b := v)]

theorem mem_valuesOf {kind : Byte} {v : List Byte} :
    v ∈ valuesOf kind items ↔ ∃ o, .option o ∈ items ∧ o.kind = kind ∧ o.value = v := by
  rw [valuesOf, mem_filterMap]
  constructor
  · rintro ⟨item, hitem, hvalue⟩
    cases item with
    | noOperation => cases hvalue
    | option o =>
      obtain ⟨hkind, hv⟩ := ite_none_right_eq_some.1 hvalue
      exact ⟨o, hitem, hkind, some.inj hv⟩
  · rintro ⟨o, ho, rfl, rfl⟩
    exact ⟨.option o, ho, if_pos rfl⟩

theorem Legal.sackBlocks_eq_nil_iff (h : Legal items) :
    (optionsOf items).sackBlocks = [] ↔ valuesOf kOptionKindSack items = [] := by
  constructor
  · intro hnil
    refine eq_nil_iff_forall_not_mem.2 fun v hv => ?_
    obtain ⟨o, ho, hkind, rfl⟩ := mem_valuesOf.1 hv
    have hallowed := h.allowed o ho
    unfold TcpOption.Allowed TcpOption.length at hallowed
    rw [hkind, if_neg (by decide), if_neg (by decide), if_neg (by decide), if_pos rfl] at hallowed
    have hblocks := flatMap_eq_nil_iff.1 hnil o.value hv
    have hrange := map_eq_nil_iff.1 hblocks
    rw [range_eq_nil] at hrange
    omega
  · intro hnil
    show (valuesOf kOptionKindSack items).flatMap sackBlocksOf = []
    rw [hnil]
    rfl

theorem Legal.stored_eq_false_iff (h : Legal items) (o : TcpOption) :
    o.stored (optionsOf items) = false ↔ (o.kind ∈ knownKinds → valuesOf o.kind items = []) := by
  unfold TcpOption.stored
  split_ifs with hmss hscale hpermitted hsack
  · simp [optionsOf, hmss, knownKinds]
  · simp [optionsOf, hscale, knownKinds]
  · simp [optionsOf, hpermitted, knownKinds]
  · simp [h.sackBlocks_eq_nil_iff, hsack, knownKinds]
  · simp [knownKinds, hmss, hscale, hpermitted, hsack]

theorem store_optionsOf (hnew : o.kind ∈ knownKinds → valuesOf o.kind items = []) :
    o.store (optionsOf items) = optionsOf (items ++ [.option o]) := by
  unfold TcpOption.store optionsOf
  simp only [valuesOf_append, valuesOf_option]
  by_cases hmss : o.kind = kOptionKindMss
  · have hnil := hnew (by simp [knownKinds, hmss])
    rw [hmss] at hnil
    simp [hmss, hnil, show kOptionKindMss ≠ kOptionKindWindowScale by decide,
      show kOptionKindMss ≠ kOptionKindSackPermitted by decide,
      show kOptionKindMss ≠ kOptionKindSack by decide]
  by_cases hscale : o.kind = kOptionKindWindowScale
  · have hnil := hnew (by simp [knownKinds, hscale])
    rw [hscale] at hnil
    simp [hscale, hnil, show kOptionKindWindowScale ≠ kOptionKindMss by decide,
      show kOptionKindWindowScale ≠ kOptionKindSackPermitted by decide,
      show kOptionKindWindowScale ≠ kOptionKindSack by decide]
  by_cases hpermitted : o.kind = kOptionKindSackPermitted
  · simp [hpermitted, show kOptionKindSackPermitted ≠ kOptionKindMss by decide,
      show kOptionKindSackPermitted ≠ kOptionKindWindowScale by decide,
      show kOptionKindSackPermitted ≠ kOptionKindSack by decide]
  by_cases hsack : o.kind = kOptionKindSack
  · have hnil := hnew (by simp [knownKinds, hsack])
    rw [hsack] at hnil
    simp [hsack, hnil, show kOptionKindSack ≠ kOptionKindMss by decide,
      show kOptionKindSack ≠ kOptionKindWindowScale by decide,
      show kOptionKindSack ≠ kOptionKindSackPermitted by decide]
  · simp [hmss, hscale, hpermitted, hsack]

theorem foldlM_absorb_eq_ok_iff (items : List TcpOptionItem) (v : TcpParsedOptions) :
    items.foldlM TcpOptionItem.absorb {} = .ok v ↔ Legal items ∧ v = optionsOf items := by
  induction items using reverseRecOn generalizing v with
  | nil =>
    constructor
    · intro h
      exact ⟨legal_nil, (Except.ok.inj h).symm⟩
    · rintro ⟨-, rfl⟩
      rfl
  | append_singleton items item ih =>
    have hsplit : (items ++ [item]).foldlM TcpOptionItem.absorb {} = .ok v ↔
        Legal items ∧ TcpOptionItem.absorb (optionsOf items) item = .ok v := by
      simp only [foldlM_append, foldlM_cons, foldlM_nil, bind_pure]
      constructor
      · intro h
        cases hfold : items.foldlM TcpOptionItem.absorb {} with
        | error e =>
          rw [hfold] at h
          cases h
        | ok parsed =>
          obtain ⟨hlegal, rfl⟩ := (ih parsed).1 hfold
          rw [hfold] at h
          exact ⟨hlegal, h⟩
      · rintro ⟨hlegal, h⟩
        rwa [(ih _).2 ⟨hlegal, rfl⟩]
    rw [hsplit]
    cases item with
    | noOperation =>
      rw [legal_snoc_noOperation]
      refine and_congr_right fun _ => ?_
      have hmeaning : optionsOf (items ++ [.noOperation]) = optionsOf items := by
        simp only [optionsOf, valuesOf_snoc_noOperation]
      rw [hmeaning]
      exact ⟨fun h => (Except.ok.inj h).symm, fun h => congrArg Except.ok h.symm⟩
    | option o =>
      rw [legal_snoc_option]
      show Legal items ∧ o.absorb (optionsOf items) = .ok v ↔ _
      rw [o.absorb_eq_ok_iff]
      constructor
      · rintro ⟨hlegal, hallowed, hstored, rfl⟩
        have hnew := (hlegal.stored_eq_false_iff o).1 hstored
        exact ⟨⟨hlegal, hallowed, hnew⟩, store_optionsOf hnew⟩
      · rintro ⟨⟨hlegal, hallowed, hnew⟩, rfl⟩
        exact ⟨hlegal, hallowed, (hlegal.stored_eq_false_iff o).2 hnew, (store_optionsOf hnew).symm⟩

theorem parse_legal (h : Legal items) (htail : EndsOptions tail) :
    parseTcpOptions (items.flatMap TcpOptionItem.bytes ++ tail) = .ok (optionsOf items) := by
  rw [parseTcpOptions_of_splits ⟨tail, rfl, htail⟩, foldlM_absorb_eq_ok_iff]
  exact ⟨h, rfl⟩

/-! ## Items that are skipped -/

def TcpOptionItem.isKnown : TcpOptionItem → Bool
  | .noOperation => false
  | .option o => decide (o.kind ∈ knownKinds)

theorem TcpOptionItem.absorb_of_unknown {item : TcpOptionItem} (h : item.isKnown = false)
    (parsed : TcpParsedOptions) : item.absorb parsed = .ok parsed := by
  cases item with
  | noOperation => rfl
  | option o =>
    have hkind : o.kind ∉ knownKinds := of_decide_eq_false h
    simp only [knownKinds, mem_cons, not_mem_nil, or_false, not_or] at hkind
    obtain ⟨hmss, hscale, hpermitted, hsack⟩ := hkind
    show o.absorb parsed = .ok parsed
    unfold TcpOption.absorb parseTcpOption
    rw [if_neg hmss, if_neg hscale, if_neg hpermitted, if_neg hsack]

theorem foldlM_filter_isKnown (items : List TcpOptionItem) :
    ∀ parsed, (items.filter TcpOptionItem.isKnown).foldlM TcpOptionItem.absorb parsed =
      items.foldlM TcpOptionItem.absorb parsed := by
  induction items with
  | nil => exact fun _ => rfl
  | cons item items ih =>
    intro parsed
    cases hknown : item.isKnown with
    | true =>
      rw [filter_cons_of_pos hknown, foldlM_cons, foldlM_cons]
      exact congrArg _ (funext ih)
    | false =>
      rw [filter_cons_of_neg (by simp [hknown]), foldlM_cons,
        TcpOptionItem.absorb_of_unknown hknown]
      exact ih parsed

/-! ## Reads -/

def readSackBlockChecked (options : List Byte) (i b : ℕ) : Option TcpSackBlock := do
  let leftEdge ← readBigEndian32Checked options (i + 2 + b * 8)
  let rightEdge ← readBigEndian32Checked options (i + 2 + b * 8 + 4)
  return ⟨leftEdge, rightEdge⟩

def parseTcpOptionChecked (options : List Byte) (kind : Byte) (i length : ℕ)
    (parsed : TcpParsedOptions) : Option (Except TcpOptionParseError TcpParsedOptions) :=
  if kind = kOptionKindMss then
    if length ≠ 4 then some (.error .truncatedOption)
    else if parsed.maximumSegmentSize.isSome then some (.error .duplicateMss)
    else (readBigEndian16Checked options (i + 2)).map fun value =>
      if value = 0 then .error .invalidMss
      else .ok { parsed with maximumSegmentSize := some value }
  else if kind = kOptionKindWindowScale then
    if length ≠ 3 then some (.error .truncatedOption)
    else if parsed.windowScale.isSome then some (.error .duplicateWindowScale)
    else (options[i + 2]?).map fun shift => .ok { parsed with windowScale := some shift }
  else if kind = kOptionKindSackPermitted then
    if length ≠ 2 then some (.error .invalidSackPermittedLength)
    else if parsed.sackPermitted then some (.error .duplicateSackPermitted)
    else some (.ok { parsed with sackPermitted := true })
  else if kind = kOptionKindSack then
    if length ≠ 10 ∧ length ≠ 18 ∧ length ≠ 26 ∧ length ≠ 34 then some (.error .invalidSackLength)
    else if !parsed.sackBlocks.isEmpty then some (.error .duplicateSack)
    else ((range ((length - 2) / 8)).mapM (readSackBlockChecked options i)).map fun blocks =>
      .ok { parsed with sackBlocks := blocks }
  else some (.ok parsed)

/-- The scan with every read checked against the end of the bytes. `none` stands for a read outside
    them, and for a scan that is not finished when the fuel is used up. -/
def parseTcpOptionsFromChecked (options : List Byte) :
    ℕ → ℕ → TcpParsedOptions → Option (Except TcpOptionParseError TcpParsedOptions)
  | 0, i, parsed => if i < options.length then none else some (.ok parsed)
  | fuel + 1, i, parsed =>
    if i < options.length then
      (options[i]?).bind fun kind =>
        if kind = kOptionKindEndOfList then some (.ok parsed)
        else if kind = kOptionKindNoOperation then
          parseTcpOptionsFromChecked options fuel (i + 1) parsed
        else if i + 1 ≥ options.length then some (.error .missingLength)
        else
          (options[i + 1]?).bind fun lengthByte =>
            let length := lengthByte.toNat
            if length < 2 then some (.error .invalidLength)
            else if i + length > options.length then some (.error .truncatedOption)
            else
              (parseTcpOptionChecked options kind i length parsed).bind fun
                | .error e => some (.error e)
                | .ok parsed => parseTcpOptionsFromChecked options fuel (i + length) parsed
    else some (.ok parsed)

def parseTcpOptionsChecked (options : List Byte) :
    Option (Except TcpOptionParseError TcpParsedOptions) :=
  parseTcpOptionsFromChecked options options.length 0 {}

theorem readSackBlockChecked_eq {b : ℕ} (h : i + 2 + b * 8 + 8 ≤ options.length) :
    readSackBlockChecked options i b = some (readSackBlock options i b) := by
  rw [readSackBlockChecked, readBigEndian32Checked_eq (by omega), readBigEndian32Checked_eq (by omega)]
  rfl

theorem parseTcpOptionChecked_eq {length : ℕ} (h : i + length ≤ options.length) (kind : Byte)
    (parsed : TcpParsedOptions) :
    parseTcpOptionChecked options kind i length parsed =
      some (parseTcpOption options kind i length parsed) := by
  have hblocks : (range ((length - 2) / 8)).mapM (readSackBlockChecked options i) =
      some ((range ((length - 2) / 8)).map (readSackBlock options i)) := by
    refine mapM_eq_some_map _ fun b hb => readSackBlockChecked_eq ?_
    have hb := mem_range.1 hb
    omega
  unfold parseTcpOptionChecked parseTcpOption
  rw [hblocks]
  simp only [apply_ite some, map_some]
  -- The reads of an MSS and of a shift count stand behind the check of the length.
  by_cases hmss : kind = kOptionKindMss
  · rw [if_pos hmss, if_pos hmss]
    by_cases hlen : length = 4
    · rw [readBigEndian16Checked_eq (by omega), map_some, apply_ite some]
    · rw [if_pos hlen, if_pos hlen]
  rw [if_neg hmss, if_neg hmss]
  by_cases hscale : kind = kOptionKindWindowScale
  · rw [if_pos hscale, if_pos hscale]
    by_cases hlen : length = 3
    · rw [getElem?_eq_some_getD (by omega), map_some]
    · rw [if_pos hlen, if_pos hlen]
  rw [if_neg hscale, if_neg hscale]

theorem parseTcpOptionsFromChecked_eq (fuel : ℕ) :
    ∀ {i : ℕ} (parsed : TcpParsedOptions), options.length ≤ i + fuel →
    parseTcpOptionsFromChecked options fuel i parsed =
      some (parseTcpOptionsFrom options fuel i parsed) := by
  induction fuel with
  | zero =>
    intro i parsed hfuel
    exact if_neg (not_lt.2 hfuel)
  | succ fuel ih =>
    intro i parsed hfuel
    rw [parseTcpOptionsFromChecked, parseTcpOptionsFrom]
    dsimp only
    by_cases hi : i < options.length
    · rw [if_pos hi, if_pos hi, getElem?_eq_some_getD hi, bind_some]
      split_ifs with hend hnop hmissing hshort hfits
      · rfl
      · exact ih parsed (by omega)
      · rfl
      · rw [getElem?_eq_some_getD (by omega), bind_some, if_pos hshort]
      · rw [getElem?_eq_some_getD (by omega), bind_some, if_neg hshort, if_pos hfits]
      · rw [getElem?_eq_some_getD (by omega), bind_some, if_neg hshort, if_neg hfits,
          parseTcpOptionChecked_eq (not_lt.1 hfits), bind_some]
        cases parseTcpOption options (options.getD i 0) i (options.getD (i + 1) 0).toNat parsed with
        | error e => rfl
        | ok parsed => exact ih parsed (by omega)
    · rw [if_neg hi, if_neg hi]

theorem parseTcpOptionsChecked_eq (options : List Byte) :
    parseTcpOptionsChecked options = some (parseTcpOptions options) :=
  parseTcpOptionsFromChecked_eq options.length {} (Nat.zero_add _).ge

/-! ## The grammar -/

/-- **`parseTcpOptions` accepts exactly its grammar.** Every read is within the bytes and the scan
    finishes; it succeeds on the bytes that split into legal items, with the meaning of the items; and
    neither the items it does not interpret nor anything behind the items changes what it returns. -/
theorem parseTcpOptions_grammar (options : List Byte) :
    parseTcpOptionsChecked options = some (parseTcpOptions options) ∧
    ((∃ parsed, parseTcpOptions options = .ok parsed) ↔ ∃ items, Splits options items ∧ Legal items) ∧
    (∀ items, Splits options items → ∀ parsed, parseTcpOptions options = .ok parsed →
      parsed = optionsOf items) ∧
    ∀ items, Splits options items → ∀ (items' : List TcpOptionItem) (tail : List Byte),
      items'.filter TcpOptionItem.isKnown = items.filter TcpOptionItem.isKnown → EndsOptions tail →
      parseTcpOptions (items'.flatMap TcpOptionItem.bytes ++ tail) = parseTcpOptions options := by
  refine ⟨parseTcpOptionsChecked_eq options, ⟨?_, ?_⟩, ?_, ?_⟩
  · rintro ⟨parsed, hparsed⟩
    obtain ⟨items, hitems⟩ := splits_of_parse hparsed
    rw [parseTcpOptions_of_splits hitems, foldlM_absorb_eq_ok_iff] at hparsed
    exact ⟨items, hitems, hparsed.1⟩
  · rintro ⟨items, ⟨tail, rfl, htail⟩, hlegal⟩
    exact ⟨optionsOf items, parse_legal hlegal htail⟩
  · intro items hitems parsed hparsed
    rw [parseTcpOptions_of_splits hitems, foldlM_absorb_eq_ok_iff] at hparsed
    exact hparsed.2
  · intro items hitems items' tail hknown htail
    have hitems' : Splits (items'.flatMap TcpOptionItem.bytes ++ tail) items' := ⟨tail, rfl, htail⟩
    rw [parseTcpOptions_of_splits hitems, parseTcpOptions_of_splits hitems',
      ← foldlM_filter_isKnown, hknown, foldlM_filter_isKnown]

/-- An unknown option in front, a No-Operation between two options, and bytes behind the end. -/
theorem parseTcpOptions_grammar_example :
    parseTcpOptions [4, 2, 3, 3, 7] = .ok { windowScale := some 7, sackPermitted := true } ∧
    parseTcpOptions [8, 3, 0, 4, 2, 1, 3, 3, 7, 0, 255] = parseTcpOptions [4, 2, 3, 3, 7] := by
  obtain ⟨-, -, -, hinsert⟩ := parseTcpOptions_grammar [4, 2, 3, 3, 7]
  refine ⟨by decide, ?_⟩
  exact hinsert [.option ⟨4, [], by decide, by decide, by decide⟩,
      .option ⟨3, [7], by decide, by decide, by decide⟩]
    ⟨[], rfl, .inl rfl⟩
    [.option ⟨8, [0], by decide, by decide, by decide⟩,
      .option ⟨4, [], by decide, by decide, by decide⟩, .noOperation,
      .option ⟨3, [7], by decide, by decide, by decide⟩]
    [0, 255] (by decide) (.inr rfl)

end Wirestack
