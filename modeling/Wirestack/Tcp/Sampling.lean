import Wirestack.Tcp.Scoreboard

set_option autoImplicit false

/-! # Round-trip samples

`retireAcknowledged` keeps only the send time of the entry it samples. `handleSample` names the entry
itself, and `Traced.step_estimate` says that the estimator moves exactly when there is one, by the
time since that entry was first sent. -/

namespace Wirestack

open List TcpConnectionTable Connection Option

variable {ack : SeqNum} {e : PendingTransmission} {c c' c₁ : Connection} {key : TcpConnectionKey}
  {op : Op} {s : Traced}

/-! ## The entry that is sampled -/

/-- The loop of `retireEntries`, with the sampled entry in place of its send time. -/
def sampleEntry (ack : SeqNum) :
    List PendingTransmission → Option PendingTransmission → Option PendingTransmission
  | [], sample => sample
  | e :: rest, sample =>
    let sample' := if e.rttEligible then some e else sample
    if sequenceLessOrEqual e.sequenceEnd ack then sampleEntry ack rest sample'
    else if sequenceGreater ack e.sequenceStart then sample'
    else sample

/-- The entry from which `retireAcknowledged` takes its RTT sample, if it takes one. -/
def retirementSample (c : Connection) (ack : SeqNum) (now : TimePoint) :
    Option PendingTransmission :=
  if sequenceGreater ack c.sndUna then
    (sampleEntry ack c.pending none).filter fun e => decide (e.firstSentAt ≤ now)
  else none

/-- The connection and the acknowledgment number with which `handle` calls `retireAcknowledged`, if
    it does. Completing a passive handshake sets `sndUna` first. -/
def retires (c : Connection) (segment : TcpSegment) : Option (Connection × SeqNum) :=
  match c.state with
  | .timeWait => none
  | .synSent =>
    match parseTcpOptions segment.options with
    | .error _ => none
    | .ok _ =>
      if segment.flags.rst || !segment.flags.syn || !segment.flags.ack || segment.flags.fin ||
          !segment.payload.isEmpty || segment.acknowledgmentNumber != c.sndNxt then none
      else some (c, segment.acknowledgmentNumber)
  | .synReceived =>
    if segment.flags.rst || segment.flags.syn || !segment.flags.ack ||
        segment.acknowledgmentNumber != c.localIsn + 1 ||
        segment.sequenceNumber != c.remoteIsn + 1 then none
    else some ({ c with sndUna := c.localIsn }, c.localIsn + 1)
  | _ =>
    match parseTcpOptions segment.options with
    | .error _ => none
    | .ok _ =>
      if segment.flags.syn || segment.flags.rst || !segment.flags.ack ||
          !sequenceLessOrEqual segment.acknowledgmentNumber c.sndNxt then none
      else some (c, segment.acknowledgmentNumber)

/-- The entry from which a call of `handle` takes an RTT sample. -/
def handleSample (c : Connection) (segment : TcpSegment) (now : TimePoint) :
    Option PendingTransmission :=
  (retires c segment).bind fun p => retirementSample p.1 p.2 now

/-- How the retirement loop divides the queue: it erases `retired` and stops in front of the rest,
    or trims the entry that the acknowledgment lands in. Samples come from what was acknowledged. -/
inductive RetireSplit (ack : SeqNum) (pending : List PendingTransmission)
    (sample sampled : Option PendingTransmission) : List PendingTransmission → Bool → Prop where
  | whole (retired rest : List PendingTransmission) : pending = retired ++ rest →
      (∀ e, sampled = some e → sample = some e ∨ e ∈ retired ∧ e.rttEligible = true) →
      RetireSplit ack pending sample sampled rest false
  | trimmed (retired rest : List PendingTransmission) (e : PendingTransmission) :
      pending = retired ++ e :: rest → sequenceLessOrEqual e.sequenceEnd ack = false →
      sequenceGreater ack e.sequenceStart = true →
      (∀ e', sampled = some e' →
        sample = some e' ∨ (e' ∈ retired ∨ e' = e) ∧ e'.rttEligible = true) →
      (e.rttEligible = true → sampled = some e) →
      RetireSplit ack pending sample sampled (e.trimTo ack :: rest) e.rttEligible

theorem RetireSplit.cons {pending rest : List PendingTransmission}
    {sample sampled : Option PendingTransmission} {survivor : Bool}
    (h : RetireSplit ack pending (if e.rttEligible then some e else sample) sampled rest survivor) :
    RetireSplit ack (e :: pending) sample sampled rest survivor := by
  -- A sample that the tail was entered with is `e` or was there before.
  have hentered : ∀ e', (if e.rttEligible then some e else sample) = some e' →
      sample = some e' ∨ e' = e ∧ e'.rttEligible = true := by
    intro e' h
    split at h
    · next heligible =>
      obtain rfl := Option.some.inj h
      exact .inr ⟨rfl, heligible⟩
    · exact .inl h
  cases h with
  | whole retired _ hsplit hsampled =>
    refine .whole (e :: retired) rest (by rw [hsplit, cons_append]) fun e' he' => ?_
    rcases hsampled e' he' with h | ⟨hmem, heligible⟩
    · rcases hentered e' h with h | ⟨rfl, heligible⟩
      · exact .inl h
      · exact .inr ⟨mem_cons_self .., heligible⟩
    · exact .inr ⟨mem_cons_of_mem _ hmem, heligible⟩
  | trimmed retired rest₁ e₁ hsplit hend hstart hsampled heligible₁ =>
    refine .trimmed (e :: retired) rest₁ e₁ (by rw [hsplit, cons_append]) hend hstart
      (fun e' he' => ?_) heligible₁
    rcases hsampled e' he' with h | ⟨hmem, heligible⟩
    · rcases hentered e' h with h | ⟨rfl, heligible⟩
      · exact .inl h
      · exact .inr ⟨.inl (mem_cons_self ..), heligible⟩
    · exact .inr ⟨hmem.imp_left (mem_cons_of_mem _), heligible⟩

theorem retireEntries_split (ack : SeqNum) (pending : List PendingTransmission) :
    ∀ (dataBytes : ℕ) (sample : Option PendingTransmission),
    RetireSplit ack pending sample (sampleEntry ack pending sample)
      (retireEntries ack pending dataBytes (sample.map (·.firstSentAt))).pending
      (retireEntries ack pending dataBytes (sample.map (·.firstSentAt))).survivorSampled ∧
    (retireEntries ack pending dataBytes (sample.map (·.firstSentAt))).sampleFirstSent =
      (sampleEntry ack pending sample).map (·.firstSentAt) := by
  induction pending with
  | nil => exact fun _ sample => ⟨.whole [] [] rfl fun _ h => .inl h, rfl⟩
  | cons e rest ih =>
    intro dataBytes sample
    have hnext : (if e.rttEligible then some e.firstSentAt else sample.map (·.firstSentAt)) =
        (if e.rttEligible then some e else sample).map (·.firstSentAt) := by
      split <;> rfl
    rw [retireEntries, sampleEntry, hnext]
    by_cases hend : sequenceLessOrEqual e.sequenceEnd ack = true
    · rw [if_pos hend, if_pos hend]
      exact ⟨(ih _ _).1.cons, (ih _ _).2⟩
    · rw [if_neg hend, if_neg hend]
      by_cases hstart : sequenceGreater ack e.sequenceStart = true
      · rw [if_pos hstart, if_pos hstart]
        refine ⟨.trimmed [] rest e rfl (by simpa using hend) hstart (fun e' he' => ?_) ?_, rfl⟩
        · split at he'
          · next heligible =>
            obtain rfl := Option.some.inj he'
            exact .inr ⟨.inr rfl, heligible⟩
          · exact .inl he'
        · exact fun heligible => if_pos heligible
      · rw [if_neg hstart, if_neg hstart]
        exact ⟨.whole [] (e :: rest) rfl fun _ h => .inl h, rfl⟩

theorem mem_retirementSample {now : TimePoint} (h : retirementSample c ack now = some e) :
    e ∈ c.pending ∧ e.rttEligible = true := by
  unfold retirementSample at h
  split at h
  · have hentry := (filter_eq_some_iff.1 h).1
    have hsplit := (retireEntries_split ack c.pending 0 none).1
    rw [hentry] at hsplit
    generalize (retireEntries ack c.pending 0 _).pending = after at hsplit
    generalize (retireEntries ack c.pending 0 _).survivorSampled = survivor at hsplit
    cases hsplit with
    | whole retired rest hpending hsampled =>
      rcases hsampled e rfl with hnone | ⟨hmem, heligible⟩
      · cases hnone
      · rw [hpending]
        exact ⟨mem_append_left _ hmem, heligible⟩
    | trimmed retired rest e₁ hpending _ _ hsampled =>
      rcases hsampled e rfl with hnone | ⟨hmem, heligible⟩
      · cases hnone
      · rw [hpending]
        refine ⟨?_, heligible⟩
        rcases hmem with hmem | rfl
        · exact mem_append_left _ hmem
        · exact mem_append_right _ (mem_cons_self ..)
  · cases h

theorem retireAcknowledged_eq (c : Connection) (ack : SeqNum) (now : TimePoint) :
    (retireAcknowledged c ack now).1 = if sequenceGreater ack c.sndUna then
        let loop := retireEntries ack c.pending 0 none
        let retired := { c with sndUna := ack, pending := loop.pending }
        match retirementSample c ack now with
        | none => retired
        | some e =>
          { retired.recordRttSample (now - e.firstSentAt) with
            pending := if loop.survivorSampled then markSampled loop.pending else loop.pending }
      else c := by
  have hfirst := (retireEntries_split ack c.pending 0 none).2
  rw [show Option.map (fun e : PendingTransmission => e.firstSentAt) none = none from rfl] at hfirst
  unfold retireAcknowledged retirementSample
  cases hgt : sequenceGreater ack c.sndUna with
  | false => rfl
  | true =>
    simp only [Bool.not_true, Bool.false_eq_true, if_false, if_true]
    generalize retireEntries ack c.pending 0 none = loop at hfirst ⊢
    cases hsample : sampleEntry ack c.pending none with
    | none =>
      rw [hsample] at hfirst
      rw [show loop.sampleFirstSent = none from hfirst]
      rfl
    | some e =>
      rw [hsample] at hfirst
      rw [show loop.sampleFirstSent = some e.firstSentAt from hfirst]
      dsimp only
      by_cases hpast : e.firstSentAt ≤ now
      · rw [if_pos hpast, filter_some_pos (by simpa using hpast)]
      · rw [if_neg hpast, filter_some_neg (by simpa using hpast)]

/-- What retirement leaves of a queue: what lies behind the acknowledged entries, the first of it
    possibly trimmed. A trimmed entry that was sampled is marked. -/
inductive Retirement (ack : SeqNum) (pending : List PendingTransmission)
    (sample : Option PendingTransmission) : List PendingTransmission → Prop where
  | whole (retired rest : List PendingTransmission) : pending = retired ++ rest →
      (∀ e, sample = some e → e ∈ retired) → Retirement ack pending sample rest
  | trimmed (retired rest : List PendingTransmission) (e : PendingTransmission) (taken : Bool) :
      pending = retired ++ e :: rest → sequenceLessOrEqual e.sequenceEnd ack = false →
      sequenceGreater ack e.sequenceStart = true → (∀ e', sample = some e' → e' ∈ retired ++ [e]) →
      taken = (e.rttSampleTaken || decide (sample = some e)) →
      Retirement ack pending sample ({ e.trimTo ack with rttSampleTaken := taken } :: rest)

theorem retireAcknowledged_retirement (c : Connection) (ack : SeqNum) (now : TimePoint) :
    Retirement ack c.pending (retirementSample c ack now)
      (retireAcknowledged c ack now).1.pending := by
  have hpending : (retireAcknowledged c ack now).1.pending = if sequenceGreater ack c.sndUna then
        if (retirementSample c ack now).isSome && (retireEntries ack c.pending 0 none).survivorSampled
        then markSampled (retireEntries ack c.pending 0 none).pending
        else (retireEntries ack c.pending 0 none).pending
      else c.pending := by
    rw [retireAcknowledged_eq]
    split
    · cases retirementSample c ack now <;> rfl
    · rfl
  rw [hpending]
  by_cases hgt : sequenceGreater ack c.sndUna = true
  · have hsplit := (retireEntries_split ack c.pending 0 none).1
    rw [show Option.map (fun e : PendingTransmission => e.firstSentAt) none = none from rfl] at hsplit
    have hsampled : retirementSample c ack now =
        (sampleEntry ack c.pending none).filter fun e => decide (e.firstSentAt ≤ now) := if_pos hgt
    have hentry : ∀ e, retirementSample c ack now = some e →
        sampleEntry ack c.pending none = some e := by
      intro e he
      rw [hsampled] at he
      exact (filter_eq_some_iff.1 he).1
    rw [if_pos hgt]
    generalize (retireEntries ack c.pending 0 none).pending = after at hsplit ⊢
    generalize (retireEntries ack c.pending 0 none).survivorSampled = survivor at hsplit ⊢
    cases hsplit with
    | whole retired _ hpending hsample =>
      rw [Bool.and_false, if_neg (by simp)]
      refine .whole retired after hpending fun e he => ?_
      rcases hsample e (hentry e he) with hnone | ⟨hmem, -⟩
      · cases hnone
      · exact hmem
    | trimmed retired rest e hpending hend hstart hsample heligible =>
      have hfront : ∀ e', retirementSample c ack now = some e' → e' ∈ retired ++ [e] := by
        intro e' he'
        rcases hsample e' (hentry e' he') with hnone | ⟨hmem | rfl, -⟩
        · cases hnone
        · exact mem_append_left _ hmem
        · exact mem_append_right _ (mem_cons_self ..)
      split_ifs with hmarked
      · rw [Bool.and_eq_true] at hmarked
        -- The trimmed entry is the newest eligible one, so the sample is its own.
        have hsome : retirementSample c ack now = some e := by
          obtain ⟨e', he'⟩ := isSome_iff_exists.1 hmarked.1
          have hsame := (hentry e' he').symm.trans (heligible hmarked.2)
          rw [he', Option.some.inj hsame]
        refine .trimmed retired rest e true hpending hend hstart hfront ?_
        simp [hsome]
      · have hne : retirementSample c ack now ≠ some e := by
          intro hsome
          rcases hsample e (hentry e hsome) with hnone | ⟨-, heligible'⟩
          · cases hnone
          · exact hmarked (by rw [hsome, heligible']; rfl)
        refine .trimmed retired rest e e.rttSampleTaken hpending hend hstart hfront ?_
        simp [hne]
  · rw [if_neg hgt]
    have hnone : retirementSample c ack now = none := if_neg hgt
    refine .whole [] c.pending rfl fun e he => ?_
    simp [hnone] at he

/-! ## Which calls retire -/

section Retires

variable {c : Connection} {segment : TcpSegment}

theorem retires_of_processes (hsync : c.state.synchronized = true) (hwait : c.state ≠ .timeWait)
    {options : TcpParsedOptions} (hproc : Processes c segment options) :
    retires c segment = some (c, segment.acknowledgmentNumber) := by
  rw [retires, hproc.options]
  cases hstate : c.state <;> simp_all [TcpState.synchronized, hproc.syn, hproc.rst, hproc.ack,
    hproc.inSent]

theorem processes_of_retires (hsync : c.state.synchronized = true) {p : Connection × SeqNum}
    (h : retires c segment = some p) : ∃ options, Processes c segment options := by
  unfold retires at h
  split at h
  · cases h
  · next hstate =>
    rw [hstate] at hsync
    cases hsync
  · next hstate =>
    rw [hstate] at hsync
    cases hsync
  · split at h
    · cases h
    · next options hoptions =>
      split at h
      · cases h
      · next hguards =>
        simp only [Bool.or_eq_true, Bool.not_eq_true', not_or, Bool.not_eq_false,
          Bool.not_eq_true] at hguards
        obtain ⟨⟨⟨hsyn, hrst⟩, hack⟩, hle⟩ := hguards
        exact ⟨options, hsyn, hrst, hack, hoptions, hle⟩

theorem synSent_retires (hstate : c.state = .synSent) {memory : ℕ → Byte} {now : TimePoint}
    (h : (handleExisting memory key c segment now).1 = some c') :
    retires c segment = none ∧ c' = c ∨
    ∃ options, retires c segment = some (c, segment.acknowledgmentNumber) ∧
      c' = establishedWith c segment options now := by
  rw [handleExisting_of_synSent memory key segment now hstate] at h
  obtain ⟨hkept, rfl⟩ := eraseIfRemoved_eq_some h
  have hretires : retires c segment = match parseTcpOptions segment.options with
      | .error _ => none
      | .ok _ =>
        if segment.flags.rst || !segment.flags.syn || !segment.flags.ack || segment.flags.fin ||
            !segment.payload.isEmpty || segment.acknowledgmentNumber != c.sndNxt then none
        else some (c, segment.acknowledgmentNumber) := by
    rw [retires, hstate]
  clear h
  generalize hresult : handleSynSent key c segment now = result at hkept ⊢
  unfold handleSynSent at hresult
  cases hoptions : parseTcpOptions segment.options with
  | error err =>
    rw [hoptions] at hretires hresult
    rw [← hresult]
    exact .inl ⟨hretires, rfl⟩
  | ok options =>
    rw [hoptions] at hretires hresult
    dsimp only at hretires hresult
    -- The guards of the handler, in its order; each one alone makes `retires` give up.
    split_ifs at hresult with hrst hreset hsyn hack hfin hnum
    · simp [← hresult] at hkept
    · rw [← hresult]
      exact .inl ⟨by rw [hretires]; simp [hrst], rfl⟩
    · rw [← hresult]
      exact .inl ⟨by rw [hretires]; simp [hsyn], rfl⟩
    · rw [← hresult]
      exact .inl ⟨by rw [hretires]; simp [hack], rfl⟩
    · rw [← hresult]
      refine .inl ⟨?_, rfl⟩
      rw [hretires, if_pos]
      rcases Bool.or_eq_true_iff.1 hfin with hfin | hpayload
      · simp [hfin]
      · rw [hpayload]
        simp
    · rw [← hresult]
      exact .inl ⟨by rw [hretires]; simp [hnum], rfl⟩
    · rw [← hresult]
      exact .inr ⟨options, by rw [hretires]; simp [hrst, hsyn, hack, hfin, hnum], rfl⟩

theorem synReceived_retires (hstate : c.state = .synReceived) {memory : ℕ → Byte}
    {key : TcpConnectionKey} {now : TimePoint} {c' : Connection}
    (h : (handleExisting memory key c segment now).1 = some c') :
    retires c segment = none ∧ (∃ pending, c' = { c with pending := pending }) ∨
    retires c segment = some ({ c with sndUna := c.localIsn }, c.localIsn + 1) ∧
      c' = completeHandshake c segment now := by
  rw [handleExisting_of_synReceived memory key segment now hstate] at h
  have hretires : retires c segment =
      if segment.flags.rst || segment.flags.syn || !segment.flags.ack ||
          segment.acknowledgmentNumber != c.localIsn + 1 ||
          segment.sequenceNumber != c.remoteIsn + 1 then none
      else some ({ c with sndUna := c.localIsn }, c.localIsn + 1) := by
    rw [retires, hstate]
  revert h
  unfold handleSynReceived
  split_ifs with hrst hseq hsyn hdup hack hdone
  · exact nofun
  · rintro ⟨rfl⟩
    exact .inl ⟨by rw [hretires]; simp [hrst], c.pending, rfl⟩
  · rintro ⟨rfl⟩
    exact .inl ⟨by rw [hretires]; simp_all, _, rfl⟩
  · rintro ⟨rfl⟩
    exact .inl ⟨by rw [hretires]; simp_all, c.pending, rfl⟩
  · rintro ⟨rfl⟩
    exact .inr ⟨by rw [hretires]; simp_all, rfl⟩
  · rintro ⟨rfl⟩
    refine .inl ⟨?_, c.pending, rfl⟩
    rw [hretires, if_pos]
    simp only [Bool.or_eq_true, bne_iff_ne, ne_eq]
    tauto
  · rintro ⟨rfl⟩
    refine .inl ⟨?_, c.pending, rfl⟩
    rw [hretires, if_pos]
    cases hs : segment.flags.syn <;> cases ha : segment.flags.ack <;> simp_all

theorem retires_pending (h : retires c segment = some (c₁, ack)) : c₁.pending = c.pending := by
  unfold retires at h
  split at h
  · cases h
  · split at h
    · cases h
    · split at h
      · cases h
      · cases h
        rfl
  · split at h
    · cases h
    · cases h
      rfl
  · split at h
    · cases h
    · split at h
      · cases h
      · cases h
        rfl

theorem mem_handleSample {now : TimePoint} (h : handleSample c segment now = some e) :
    e ∈ c.pending ∧ e.rttEligible = true := by
  obtain ⟨⟨c₁, ack⟩, hretires, hsample⟩ := bind_eq_some_iff.1 h
  rw [← retires_pending hretires]
  exact mem_retirementSample hsample

theorem handleSample_of_retires (h : retires c segment = some (c₁, ack)) (now : TimePoint) :
    handleSample c segment now = retirementSample c₁ ack now := by
  rw [handleSample, h]
  rfl

theorem handleSample_eq_none (h : retires c segment = none) (now : TimePoint) :
    handleSample c segment now = none := by
  rw [handleSample, h]
  rfl

end Retires

/-! ## The estimator -/

/-- The state of the RTT estimator. -/
structure RttEstimate where
  hasRttSample : Bool
  srtt : Duration
  rttvar : Duration

def Connection.estimate (c : Connection) : RttEstimate :=
  { hasRttSample := c.hasRttSample
    srtt := c.srtt
    rttvar := c.rttvar }

/-- The estimator after a call at `now` that sampled `sample`. -/
def Connection.estimateAfter (c : Connection) (sample : Option PendingTransmission)
    (now : TimePoint) : RttEstimate :=
  match sample with
  | none => c.estimate
  | some e => (c.recordRttSample (now - e.firstSentAt)).estimate

theorem estimateAfter_congr (h : c'.estimate = c.estimate) (sample : Option PendingTransmission)
    (now : TimePoint) : c'.estimateAfter sample now = c.estimateAfter sample now := by
  cases sample with
  | none => exact h
  | some e =>
    simp only [estimate, RttEstimate.mk.injEq] at h
    obtain ⟨hhas, hsrtt, hvar⟩ := h
    unfold estimateAfter recordRttSample estimate
    dsimp only
    rw [hhas, hsrtt, hvar]
    split <;> rfl

theorem retireAcknowledged_estimate (c : Connection) (ack : SeqNum) (now : TimePoint) :
    (retireAcknowledged c ack now).1.estimate =
      c.estimateAfter (retirementSample c ack now) now := by
  have hretired : ∀ pending, estimate { c with sndUna := ack, pending := pending } =
      c.estimate := fun _ => rfl
  by_cases hgt : sequenceGreater ack c.sndUna = true
  · rw [retireAcknowledged_eq, if_pos hgt]
    cases retirementSample c ack now with
    | none => rfl
    | some e => exact estimateAfter_congr (hretired _) (some e) now
  · rw [retireAcknowledged_eq, if_neg hgt, retirementSample, if_neg hgt]
    rfl

theorem retireAcknowledged_estimate_congr {c₂ : Connection} (hestimate : c₁.estimate = c.estimate)
    (hpending : c₁.pending = c₂.pending) (huna : c₁.sndUna = c₂.sndUna) (ack : SeqNum)
    (now : TimePoint) :
    (retireAcknowledged c₁ ack now).1.estimate =
      c.estimateAfter (retirementSample c₂ ack now) now := by
  have hsample : retirementSample c₁ ack now = retirementSample c₂ ack now := by
    unfold retirementSample
    rw [hpending, huna]
  rw [retireAcknowledged_estimate, hsample]
  exact estimateAfter_congr hestimate _ now

section

variable (key : TcpConnectionKey) (c : Connection) (segment : TcpSegment)
  (options : TcpParsedOptions) (now : TimePoint)

theorem processAck_estimate : (processAck key c segment options now).1.estimate =
      (retireAcknowledged c segment.acknowledgmentNumber now).1.estimate := by
  rw [processAck_retired]
  rfl

theorem establishedWith_estimate : (establishedWith c segment options now).estimate =
      c.estimateAfter (retirementSample c segment.acknowledgmentNumber now) now := by
  unfold establishedWith
  dsimp only
  generalize hnegotiated : negotiate _ options = c₁
  have hsame : c₁.estimate = c.estimate ∧ c₁.pending = c.pending ∧ c₁.sndUna = c.sndUna := by
    subst hnegotiated
    unfold negotiate
    split <;> exact ⟨rfl, rfl, rfl⟩
  obtain ⟨hestimate, hpending, huna⟩ := hsame
  let c₂ : Connection := { c₁ with state := .established }
  have hestimate₂ : c₂.estimate = c.estimate := hestimate
  exact retireAcknowledged_estimate_congr hestimate₂ hpending huna segment.acknowledgmentNumber now

theorem completeHandshake_estimate : (completeHandshake c segment now).estimate = c.estimateAfter
        (retirementSample { c with sndUna := c.localIsn } (c.localIsn + 1) now) now := by
  unfold completeHandshake
  dsimp only
  generalize hopened : ({ c with
        state := .established
        rcvNxt := c.remoteIsn + 1
        sndUna := c.localIsn
        sndNxt := c.localIsn + 1 } : Connection) = c₁
  have hsame : c₁.estimate = c.estimate ∧ c₁.pending = c.pending ∧ c₁.sndUna = c.localIsn := by
    subst hopened
    exact ⟨rfl, rfl, rfl⟩
  obtain ⟨hestimate, hpending, huna⟩ := hsame
  have hretire := retireAcknowledged_estimate_congr hestimate
    (hpending.trans (show c.pending = { c with sndUna := c.localIsn }.pending from rfl)) huna
    (c.localIsn + 1) now
  exact hretire

end

theorem handleExisting_estimate {memory : ℕ → Byte} {segment : TcpSegment} {now : TimePoint}
    (h : (handleExisting memory key c segment now).1 = some c') :
    c'.estimate = c.estimateAfter (handleSample c segment now) now := by
  cases hsync : c.state.synchronized with
  | true =>
    have hkept := handleExisting_kept h
    cases hret : retires c segment with
    | none =>
      rw [handleSample_eq_none hret]
      generalize (handleExisting memory key c segment now).2 = result at hkept
      cases hkept with
      | ignored => rfl
      | established _ hstate | resent hstate | completed hstate =>
        simp [hstate, TcpState.synchronized] at hsync
      | restarted => rfl
      | processed options outcome _ hwait hproc =>
        simp [retires_of_processes hsync hwait hproc] at hret
    | some p =>
      obtain ⟨options, hproc⟩ := processes_of_retires hsync hret
      have hwait : c.state ≠ .timeWait := by
        intro hwait
        unfold retires at hret
        simp [hwait] at hret
      rw [handleExisting_of_synchronized memory key segment now hsync hwait] at h
      obtain ⟨-, rfl⟩ := eraseIfRemoved_eq_some h
      rw [handleSample_of_retires (retires_of_processes hsync hwait hproc),
        ← retireAcknowledged_estimate, ← processAck_estimate, (handleSynchronized_processed memory key hproc now).shape]
      rfl
  | false =>
    have hstate : c.state = .synSent ∨ c.state = .synReceived := by
      cases hstate : c.state <;> simp_all [TcpState.synchronized]
    rcases hstate with hstate | hstate
    · rcases synSent_retires hstate h with ⟨hnone, rfl⟩ | ⟨options, hsome, rfl⟩
      · rw [handleSample_eq_none hnone]
        rfl
      · rw [handleSample_of_retires hsome]
        exact establishedWith_estimate ..
    · rcases synReceived_retires hstate h with ⟨hnone, pending, rfl⟩ | ⟨hsome, rfl⟩
      · rw [handleSample_eq_none hnone]
        rfl
      · rw [handleSample_of_retires hsome]
        exact completeHandshake_estimate ..

/-! ## Samples of any call -/

/-- The instant at which a call is made. -/
def Op.now : Op → TimePoint
  | .beginConnect _ now => now
  | .handle _ _ _ now => now
  | .makeOutgoingData _ _ now => now
  | .beginClose _ now => now
  | .pollPersistProbes now => now
  | .pollRetransmissions now => now

/-- The entry from which a call takes an RTT sample for `key`. -/
def Traced.sampleFor (s : Traced) (key : TcpConnectionKey) : Op → Option PendingTransmission
  | .handle _ k segment now =>
    if k = key then (s.table.find? key).bind (handleSample · segment now) else none
  | _ => none

theorem CallKept.estimate {e : Event} (h : CallKept key c e c') (hreceived : e.received = []) :
    c'.estimate = c.estimate := by
  rw [h.unreceived_shape hreceived]
  rfl

theorem Traced.sampleFor_eq_none (s : Traced)
    (h : ∀ memory segment now, op ≠ .handle memory key segment now) :
    s.sampleFor key op = none := by
  cases op with
  | handle memory k segment now =>
    refine if_neg fun hk => h memory segment now ?_
    rw [hk]
  | beginConnect k now | makeOutgoingData k payload now | beginClose k now
  | pollPersistProbes now | pollRetransmissions now => rfl

theorem Traced.sampleFor_of_none (h : s.table.find? key = none) (op : Op) :
    s.sampleFor key op = none := by
  cases op with
  | handle memory k segment now => simp only [Traced.sampleFor, h, bind_none, ite_self]
  | beginConnect k now | makeOutgoingData k payload now | beginClose k now
  | pollPersistProbes now | pollRetransmissions now => rfl

theorem Traced.sampleFor_handle (hc : s.table.find? key = some c) (memory : ℕ → Byte)
    (segment : TcpSegment) (now : TimePoint) :
    s.sampleFor key (.handle memory key segment now) = handleSample c segment now := by
  rw [Traced.sampleFor, if_pos rfl, hc]
  rfl

theorem Traced.mem_sampleFor (hc : s.table.find? key = some c) (h : s.sampleFor key op = some e) :
    e ∈ c.pending ∧ e.rttEligible = true := by
  by_cases hop : ∀ memory segment now, op ≠ .handle memory key segment now
  · simp [s.sampleFor_eq_none hop] at h
  · simp only [ne_eq, not_forall, not_not] at hop
    obtain ⟨memory, segment, now, rfl⟩ := hop
    rw [sampleFor_handle hc] at h
    exact mem_handleSample h

theorem Traced.step_sampled (hc : s.table.find? key = some c)
    (hc' : (s.step op).table.find? key = some c') :
    s.sampleFor key op = none ∧ s.table.eventFor key op = none ∧ c' = c ∨
    (∃ e, s.sampleFor key op = none ∧ s.table.eventFor key op = some e ∧ e.received = [] ∧
      CallKept key c e c') ∨
    ∃ memory segment now, op = .handle memory key segment now ∧
      s.sampleFor key op = handleSample c segment now ∧
      s.table.eventFor key op = some (.handle segment (handleExisting memory key c segment now).2) ∧
      (handleExisting memory key c segment now).1 = some c' := by
  by_cases hop : ∀ memory segment now, op ≠ .handle memory key segment now
  · have hnone := s.sampleFor_eq_none hop
    rcases s.table.apply_key op key with ⟨hevent, hsame⟩ | ⟨e, hevent, hstep⟩
    · refine .inl ⟨hnone, hevent, ?_⟩
      exact Option.some.inj (hc'.symm.trans (hsame.trans hc))
    · refine .inr (.inl ⟨e, hnone, hevent, ?_, ?_⟩)
      · cases e with
        | handle segment result =>
          obtain ⟨memory, now, rfl⟩ := op_of_handle hevent
          exact absurd rfl (hop memory segment now)
        | beginConnect _ | makeOutgoingData _ _ | beginClose _ | pollPersistProbes _
        | pollRetransmissions _ => rfl
      · rw [hc] at hstep
        have hafter : (s.table.apply op).find? key = some c' := hc'
        rw [hafter] at hstep
        exact hstep.kept
  · simp only [ne_eq, not_forall, not_not] at hop
    obtain ⟨memory, segment, now, rfl⟩ := hop
    have hhandle := handle_of_some hc memory segment now
    refine .inr (.inr ⟨memory, segment, now, rfl, sampleFor_handle hc .., ?_, ?_⟩)
    · rw [eventFor, if_pos rfl, hhandle]
    · rw [← hc']
      simp only [Traced.step, apply, hhandle, find?_put, if_true]

theorem Traced.step_estimate (hc : s.table.find? key = some c)
    (hc' : (s.step op).table.find? key = some c') :
    c'.estimate = c.estimateAfter (s.sampleFor key op) op.now := by
  rcases Traced.step_sampled hc hc' with
    ⟨hnone, -, rfl⟩ | ⟨e, hnone, -, hreceived, hkept⟩ |
      ⟨memory, segment, now, rfl, hsample, -, hhandle⟩
  · rw [hnone]
    rfl
  · rw [hnone]
    exact hkept.estimate hreceived
  · rw [hsample]
    exact handleExisting_estimate hhandle

end Wirestack
