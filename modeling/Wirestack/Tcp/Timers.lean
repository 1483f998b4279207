import Wirestack.Tcp.Entries
import Wirestack.Tcp.SendWindow

set_option autoImplicit false

/-! # Deadlines and polls

The event loop sleeps until the earlier of `nextRetransmissionDeadline` and `nextPersistDeadline` and
then polls. The deadline functions and the polls walk the table with conditions of their own; here
they are shown to agree. A poll does something exactly when its deadline has come, and afterwards its
deadline lies in the future, because every interval it adds to `now` is positive (`TimersOk`) and an
armed persist timer always belongs to a connection that may probe (`NoStall.armed`). -/

namespace Wirestack

open List TcpConnectionTable Connection

variable {memory : ℕ → Byte} {segment : TcpSegment} {options : TcpParsedOptions}
  {fast : Option TcpSegment} {outcome : Connection × TcpReceiveResult} {key : TcpConnectionKey}

variable {interval : Duration} {c c' : Connection} {now : TimePoint} {ok : Traced → Op → Prop}
  {s : Traced}

/-! ## The earliest deadline -/

/-- The deadline is set and has come. -/
def Due (now : TimePoint) (deadline : Option TimePoint) : Prop := ∃ d, deadline = some d ∧ d ≤ now

namespace TcpConnectionTable

variable {now : TimePoint}

theorem due_earlier (earliest deadline : Option TimePoint) :
    Due now (earlier earliest deadline) ↔ Due now earliest ∨ Due now deadline := by
  unfold Due earlier
  cases deadline with
  | none => simp
  | some d =>
    cases earliest with
    | none => simp
    | some e =>
      dsimp only
      split_ifs with hlt
      · simp only [Option.some.injEq, exists_eq_left']
        exact ⟨.inr, fun h => h.elim (fun he => (le_of_lt hlt).trans he) id⟩
      · simp only [Option.some.injEq, exists_eq_left']
        exact ⟨.inl, fun h => h.elim id fun hd => (not_lt.1 hlt).trans hd⟩

theorem due_foldl_earlier {α : Type} (deadline : α → Option TimePoint) (entries : List α)
    (earliest : Option TimePoint) :
    Due now (entries.foldl (fun e p => earlier e (deadline p)) earliest) ↔
      Due now earliest ∨ ∃ p ∈ entries, Due now (deadline p) := by
  induction entries generalizing earliest with
  | nil => simp
  | cons p rest ih => rw [foldl_cons, ih, due_earlier, exists_mem_cons_iff, or_assoc]

theorem due_next (t : TcpConnectionTable) (deadline : Connection → Option TimePoint) :
    Due now (t.connections.toList.foldl (fun e p => earlier e (deadline p.2)) none) ↔
      ∃ key c, t.find? key = some c ∧ Due now (deadline c) := by
  rw [due_foldl_earlier (fun p : TcpConnectionKey × Connection => deadline p.2)]
  constructor
  · rintro (⟨d, hnone, -⟩ | ⟨⟨key, c⟩, hmem, hdue⟩)
    · cases hnone
    · exact ⟨key, c, (t.mem_toList_iff key c).1 hmem, hdue⟩
  · rintro ⟨key, c, hc, hdue⟩
    exact .inr ⟨(key, c), (t.mem_toList_iff key c).2 hc, hdue⟩

theorem due_nextRetransmissionDeadline (t : TcpConnectionTable) :
    Due now t.nextRetransmissionDeadline ↔
      ∃ key c, t.find? key = some c ∧ Due now c.retransmissionDeadline :=
  t.due_next retransmissionDeadline

theorem due_nextPersistDeadline (t : TcpConnectionTable) :
    Due now t.nextPersistDeadline ↔ ∃ key c, t.find? key = some c ∧ Due now c.persistDeadline :=
  t.due_next persistDeadline

end TcpConnectionTable

/-! ## The range of the retransmission timeout -/

/-- The range of `current_rto` and of every `timeout_interval`. -/
def IsRto (interval : Duration) : Prop := kMinRto ≤ interval ∧ interval ≤ kMaxRto

theorem IsRto.pos (h : IsRto interval) : 0 < interval :=
  lt_of_lt_of_le (by decide : 0 < kMinRto) h.1

theorem IsRto.backOff (h : IsRto interval) : IsRto (min (interval * 2) kMaxRto) := by
  have hdouble : ∀ d : ℤ, 0 < d → d ≤ d * 2 := fun d hd => by omega
  exact ⟨le_min (h.1.trans (hdouble interval h.pos)) (by decide), min_le_right _ _⟩

theorem IsRto.max {a b : Duration} (ha : IsRto a) (hb : IsRto b) : IsRto (max a b) :=
  ⟨ha.1.trans (le_max_left _ _), max_le ha.2 hb.2⟩

/-- The connection's timeout and those of its queue entries are in range. -/
structure RtoOk (c : Connection) : Prop where
  rto : IsRto c.currentRto
  intervals : ∀ e ∈ c.pending, IsRto e.timeoutInterval

theorem EntryUpdate.isRto {e e' : PendingTransmission} (h : EntryUpdate e e')
    (hrange : IsRto e.timeoutInterval) : IsRto e'.timeoutInterval := by
  cases h with
  | trimmed ack | sampled | sentAgain now | recovered now | cleared | collapsed => exact hrange
  | backedOff now => exact hrange.backOff

theorem Rewrites.isRto {rto : Duration} {p q : List PendingTransmission} (h : Rewrites rto p q)
    (hrto : IsRto rto) (hp : ∀ e ∈ p, IsRto e.timeoutInterval) :
    ∀ e ∈ q, IsRto e.timeoutInterval :=
  h.all_of (fun _ _ hupdate => hupdate.isRto)
    (fun e hfresh => by rw [hfresh.timeoutInterval]; exact hrto) hp

theorem afterRetire_isRto (h : RtoOk c) (segment : TcpSegment) (options : TcpParsedOptions)
    (now : TimePoint) :
    ∀ e ∈ (afterRetire c segment options now).pending, IsRto e.timeoutInterval := by
  have hretired : ∀ e ∈ (retireAcknowledged c segment.acknowledgmentNumber now).1.pending,
      IsRto e.timeoutInterval :=
    (retireAcknowledged_rewrites c.currentRto c segment.acknowledgmentNumber now).isRto
      h.rto h.intervals
  unfold afterRetire applySackBlocks
  dsimp only
  split
  · split
    · exact hretired
    · intro e' he'
      obtain ⟨e, he, rfl⟩ := mem_map.1 he'
      have hrange := hretired e he
      split_ifs
      · exact hrange
      · exact hrange
      · exact hrange
  · exact hretired

theorem recordRttSample_isRto (c : Connection) (r : Duration) :
    IsRto (c.recordRttSample r).currentRto :=
  ⟨le_max_left _ _, max_le (by decide) (min_le_right _ _)⟩

theorem retireAcknowledged_isRto (h : IsRto c.currentRto) (ack : SeqNum) (now : TimePoint) :
    IsRto (retireAcknowledged c ack now).1.currentRto := by
  unfold retireAcknowledged
  split
  · exact h
  · dsimp only
    split
    · split
      · exact recordRttSample_isRto _ _
      · exact h
    · exact h

section Calls

variable {key : TcpConnectionKey} {c c' : Connection} {e : Event}

theorem ReceiveOutcome.isRto (h : IsRto c.currentRto)
    (hout : ProcessedOutcome memory key c segment options fast now outcome) :
    IsRto outcome.1.currentRto := by
  rw [hout.shape, processAck_retired]
  exact retireAcknowledged_isRto h segment.acknowledgmentNumber now

theorem establishedWith_isRto (h : IsRto c.currentRto) (segment : TcpSegment)
    (options : TcpParsedOptions) (now : TimePoint) :
    IsRto (establishedWith c segment options now).currentRto := by
  have hnegotiate : ∀ c₁ : Connection, (c₁.negotiate options).currentRto = c₁.currentRto := by
    intro c₁
    unfold negotiate
    split <;> rfl
  have hretired := retireAcknowledged_isRto (c := { negotiate { c with
          remoteIsn := segment.sequenceNumber
          remoteIsnKnown := true
          rcvNxt := segment.sequenceNumber + 1 } options with
      state := .established }) (by dsimp only; rw [hnegotiate]; exact h)
    segment.acknowledgmentNumber now
  exact hretired

theorem completeHandshake_isRto (h : IsRto c.currentRto) (segment : TcpSegment)
    (now : TimePoint) : IsRto (completeHandshake c segment now).currentRto := by
  have hretired := retireAcknowledged_isRto (c := { c with
      state := .established
      rcvNxt := c.remoteIsn + 1
      sndUna := c.localIsn
      sndNxt := c.localIsn + 1 }) h (c.localIsn + 1) now
  exact hretired

theorem timedOutWith_currentRto (c : Connection) (oldest : PendingTransmission) :
    (c.timedOutWith oldest).currentRto = c.currentRto := by
  unfold timedOutWith
  split
  · rfl
  · rfl

theorem RtoOk.call_currentRto (h : RtoOk c) (hcall : CallKept key c e c') : IsRto c'.currentRto := by
  cases hcall with
  | idle => exact h.rto
  | handle memory segment now _ result hkept =>
    cases hkept with
    | ignored => exact h.rto
    | established options => exact establishedWith_isRto h.rto segment options now
    | resent => exact h.rto
    | completed => exact completeHandshake_isRto h.rto segment now
    | restarted => exact h.rto
    | processed options outcome _ _ _ hout => exact hout.isRto h.rto
  | sent payload now =>
    rw [scheduleQueuedData_shape]
    exact h.rto
  | closed now =>
    obtain ⟨_, hclosed⟩ := closed_shape key c now
    rw [hclosed]
    exact h.rto
  | disarmed _ | probed deadline now _ _ _ => exact h.rto
  | resent oldest rest now _ hpending =>
    have holdest : IsRto oldest.timeoutInterval :=
      h.intervals oldest (by rw [hpending]; exact mem_cons_self ..)
    rw [timedOutWith_currentRto]
    exact h.rto.max holdest.backOff

theorem RtoOk.call (h : RtoOk c) (hcall : CallKept key c e c') : RtoOk c' := by
  have hrto := h.call_currentRto hcall
  refine ⟨hrto, ?_⟩
  rcases hcall.rewrites with hrewrites | ⟨segment, _, options, now, -, -, -, hrewrites⟩
  · exact hrewrites.isRto hrto h.intervals
  · exact hrewrites.isRto hrto (afterRetire_isRto h segment options now)

end Calls

theorem Run.rtoOk (hs : Run ok s) (hc : s.table.find? key = some c) : RtoOk c := by
  have hinitial : IsRto kInitialRto := ⟨by decide, by decide⟩
  have hsyn : ∀ (c₁ : Connection) active flags now, IsRto c₁.currentRto →
      ∀ e ∈ [synEntry c₁ active flags now], IsRto e.timeoutInterval := by
    intro c₁ active flags now hrto e he
    rwa [mem_singleton.1 he]
  refine Run.connection_invariant RtoOk ?_ ?_ (fun _ _ _ _ _ _ _ hcall h => h.call hcall) hs hc
  · exact fun isn now => ⟨hinitial, hsyn _ _ _ _ hinitial⟩
  · intro segment options isn now _
    have hnew : (passiveConnection segment options isn).currentRto = kInitialRto := by
      unfold passiveConnection negotiate
      cases options.windowScale <;> rfl
    have hrange : IsRto (passiveConnection segment options isn).currentRto := by rwa [hnew]
    exact ⟨hrange, hsyn _ _ _ _ hrange⟩

/-! ## Every interval is positive -/

structure TimersOk (c : Connection) : Prop where
  rto : 0 < c.currentRto
  intervals : ∀ e ∈ c.pending, 0 < e.timeoutInterval
  persist : 0 < c.persistInterval

theorem backOff_pos {bound : Duration} (h : 0 < interval) (hbound : 0 < bound) :
    0 < min (interval * 2) bound := lt_min (Int.mul_pos h (by decide)) hbound

theorem updatePersistState_persistInterval (h : 0 < c.persistInterval) (now : TimePoint) :
    0 < (c.updatePersistState now).persistInterval := by
  unfold updatePersistState
  split_ifs
  · exact h
  · exact (by decide : 0 < kInitialPersistInterval)
  · exact h

theorem scheduleQueuedData_persistInterval (h : 0 < c.persistInterval) (key : TcpConnectionKey)
    (now : TimePoint) : 0 < (scheduleQueuedData key c now).1.persistInterval := by
  unfold scheduleQueuedData
  refine updatePersistState_persistInterval ?_ now
  split
  · rwa [maybeSequenceFin_shape, sendQueued_shape]
  · rwa [sendQueued_shape]

theorem scheduleIfSendable_persistInterval (h : 0 < c.persistInterval) (key : TcpConnectionKey)
    (now : TimePoint) : 0 < (scheduleIfSendable key c now).1.persistInterval := by
  unfold scheduleIfSendable
  split
  · exact scheduleQueuedData_persistInterval h key now
  · exact updatePersistState_persistInterval h now

section Calls

variable {key : TcpConnectionKey} {c c' : Connection} {e : Event}

theorem ReceiveOutcome.persistInterval_pos (h : 0 < c.persistInterval)
    (hout : ProcessedOutcome memory key c segment options fast now outcome) :
    0 < outcome.1.persistInterval := by
  rw [hout.connection]
  refine scheduleIfSendable_persistInterval ?_ key now
  rwa [receivePart_shape, afterAck, advanceClose_shape, processAck_shape]

theorem CallKept.persistInterval_pos (h : 0 < c.persistInterval) (hcall : CallKept key c e c') :
    0 < c'.persistInterval := by
  cases hcall with
  | idle => exact h
  | handle memory segment now _ result hkept =>
    cases hkept with
    | ignored => exact h
    | established options =>
      rw [establishedWith_shape]
      unfold negotiate
      cases options.windowScale <;> exact h
    | resent => exact h
    | completed => rwa [completeHandshake_shape]
    | restarted => exact h
    | processed options outcome _ _ _ hout => exact hout.persistInterval_pos h
  | sent payload now =>
    have hinterval := scheduleQueuedData_persistInterval
      (c := { c with unsent := c.unsent ++ payload }) h key now
    exact hinterval
  | closed now =>
    refine updatePersistState_persistInterval ?_ now
    rwa [maybeSequenceFin_shape]
  | disarmed => exact h
  | probed deadline now => exact backOff_pos h (by decide)
  | resent oldest rest now =>
    show 0 < (c.timedOutWith oldest).persistInterval
    unfold timedOutWith
    split
    · exact h
    · exact h

end Calls

theorem Run.timersOk (hs : Run ok s) (hc : s.table.find? key = some c) : TimersOk c := by
  have hrange := hs.rtoOk hc
  refine ⟨hrange.rto.pos, fun e he => (hrange.intervals e he).pos, ?_⟩
  refine Run.connection_invariant (fun c₁ => 0 < c₁.persistInterval) ?_ ?_
    (fun _ _ _ _ _ _ _ hcall h => hcall.persistInterval_pos h) hs hc
  · exact fun isn now => (by decide : 0 < kInitialPersistInterval)
  · intro segment options isn now _
    show 0 < (passiveConnection segment options isn).persistInterval
    unfold passiveConnection negotiate
    cases options.windowScale <;> exact (by decide : 0 < kInitialPersistInterval)

/-! ## One connection -/

section OneConnection

variable {key : TcpConnectionKey} {c : Connection} {now : TimePoint}

theorem pollConnection_idle_iff :
    pollConnection key c now = .idle ↔ ¬ Due now c.retransmissionDeadline := by
  unfold pollConnection retransmissionDeadline Due
  split_ifs with hwait
  · cases c.timeWaitDeadline with
    | none => simp
    | some deadline =>
      dsimp only
      split_ifs with hdue
      · simpa using hdue
      · simpa using hdue
  · cases c.pending with
    | nil => simp
    | cons oldest rest =>
      dsimp only
      split_ifs with hearly hgiveUp
      · simpa using hearly
      · simpa using hearly
      · simpa using hearly

theorem pollConnection_of_pending (hwait : c.state ≠ .timeWait) {oldest : PendingTransmission}
    {rest : List PendingTransmission} (hpending : c.pending = oldest :: rest) :
    pollConnection key c now = if now < oldest.lastSentAt + oldest.timeoutInterval then .idle
      else if oldest.timeoutRetransmitCount ≥ kMaxRetransmits then .timedOut
      else
        .retransmit { c.timedOutWith oldest with
            pending := (c.timedOutWith oldest).pending.modifyHead (·.backOff now)
            currentRto :=
              max (c.timedOutWith oldest).currentRto (oldest.backOff now).timeoutInterval }
          (timeoutSegment key (c.timedOutWith oldest) oldest) := by
  rw [pollConnection, if_neg hwait]
  split
  · next hnil =>
    simp [hpending] at hnil
  · next oldest' rest' hcons =>
    rw [hpending] at hcons
    cases hcons
    rfl

theorem pollConnection_kept (hkept : (pollConnection key c now).kept c = some c') :
    (¬ Due now c.retransmissionDeadline ∧ c' = c) ∨
    ∃ oldest rest, c.state ≠ .timeWait ∧ c.pending = oldest :: rest ∧
      c' = { c.timedOutWith oldest with
        pending := (c.timedOutWith oldest).pending.modifyHead (·.backOff now)
        currentRto :=
          max (c.timedOutWith oldest).currentRto (oldest.backOff now).timeoutInterval } := by
  by_cases hidle : pollConnection key c now = .idle
  · rw [hidle] at hkept
    cases hkept
    exact .inl ⟨pollConnection_idle_iff.1 hidle, rfl⟩
  · right
    have hdue := not_not.1 (mt pollConnection_idle_iff.2 hidle)
    by_cases hwait : c.state = .timeWait
    · -- A TIME-WAIT connection whose time has come is not kept.
      obtain ⟨d, hd, hle⟩ := hdue
      rw [retransmissionDeadline, if_pos hwait] at hd
      rw [pollConnection, if_pos hwait, hd] at hkept
      dsimp only at hkept
      rw [if_pos hle] at hkept
      cases hkept
    · cases hpending : c.pending with
      | nil =>
        obtain ⟨d, hd, -⟩ := hdue
        simp [retransmissionDeadline, if_neg hwait, hpending] at hd
      | cons oldest rest =>
        rw [pollConnection_of_pending hwait hpending] at hkept hidle
        refine ⟨oldest, rest, hwait, rfl, ?_⟩
        split_ifs at hkept hidle
        · exact absurd rfl hidle
        · cases hkept
        · cases hkept
          rfl

theorem pollConnection_not_due (h : TimersOk c)
    (hkept : (pollConnection key c now).kept c = some c') :
    ¬ Due now c'.retransmissionDeadline := by
  rcases pollConnection_kept hkept with ⟨hnot, rfl⟩ | ⟨oldest, rest, hwait, hpending, rfl⟩
  · exact hnot
  · have hpos : 0 < (oldest.backOff now).timeoutInterval :=
      backOff_pos (h.intervals oldest (by rw [hpending]; exact mem_cons_self ..)) (by decide)
    have hdeadline : retransmissionDeadline { c.timedOutWith oldest with
          pending := (c.timedOutWith oldest).pending.modifyHead (·.backOff now)
          currentRto :=
            max (c.timedOutWith oldest).currentRto (oldest.backOff now).timeoutInterval } =
        some (now + (oldest.backOff now).timeoutInterval) := by
      have hstate : (c.timedOutWith oldest).state = c.state := by
        unfold timedOutWith
        split <;> rfl
      unfold retransmissionDeadline
      rw [hstate, if_neg hwait]
      unfold timedOutWith
      split_ifs
      · rw [applyTimeoutCongestionCollapse, hpending]
        rfl
      · rw [hpending]
        rfl
    rw [hdeadline]
    rintro ⟨d, hd, hle⟩
    cases hd
    exact absurd hle (not_le.2 (lt_add_of_pos_right now hpos))

theorem pollConnection_persistDeadline (hkept : (pollConnection key c now).kept c = some c') :
    c'.persistDeadline = c.persistDeadline := by
  rcases pollConnection_kept hkept with ⟨-, rfl⟩ | ⟨oldest, rest, -, -, rfl⟩
  · rfl
  · unfold timedOutWith
    split
    · rfl
    · rfl

theorem pollPersistProbe_idle (harmed : c.persistDeadline.isSome = c.persistEligible) :
    ((pollPersistProbe key c now).2 = none ↔ ¬ Due now c.persistDeadline) ∧
      ((pollPersistProbe key c now).2 = none → (pollPersistProbe key c now).1 = c) := by
  unfold pollPersistProbe Due
  cases hdeadline : c.persistDeadline with
  | none => simp
  | some deadline =>
    rw [hdeadline, Option.isSome_some] at harmed
    dsimp only
    rw [← harmed]
    split_ifs with hearly hfalse
    · simpa using hearly
    · cases hfalse
    · simpa using hearly

theorem pollPersistProbe_not_due (h : TimersOk c) :
    ¬ Due now (pollPersistProbe key c now).1.persistDeadline := by
  unfold pollPersistProbe
  cases hdeadline : c.persistDeadline with
  | none =>
    rintro ⟨d, hd, -⟩
    simp [hdeadline] at hd
  | some deadline =>
    dsimp only
    split_ifs with hearly heligible
    · rintro ⟨d, hd, hle⟩
      rw [hdeadline] at hd
      cases hd
      exact absurd hle (not_le.2 hearly)
    · rintro ⟨d, hd, -⟩
      cases hd
    · rintro ⟨d, hd, hle⟩
      cases hd
      have hpos := backOff_pos h.persist (by decide : 0 < kMaxPersistInterval)
      exact absurd hle (not_le.2 (lt_add_of_pos_right now hpos))

theorem pollPersistProbe_retransmissionDeadline :
    (pollPersistProbe key c now).1.retransmissionDeadline = c.retransmissionDeadline := by
  unfold pollPersistProbe
  cases c.persistDeadline with
  | none => rfl
  | some deadline =>
    dsimp only
    split_ifs
    · rfl
    · rfl
    · rfl

end OneConnection

/-! ## The polls -/

namespace TcpConnectionTable

variable {t : TcpConnectionTable} {now : TimePoint}

theorem pollRetransmissions_empty_iff : (t.pollRetransmissions now).2 = {} ↔
      ∀ key c, t.find? key = some c → pollConnection key c now = .idle := by
  constructor
  · intro hempty key c hc
    have hmem := (t.mem_toList_iff key c).2 hc
    have hresent := congrArg TcpTimeoutPollResult.retransmissions hempty
    have htimedOut := congrArg TcpTimeoutPollResult.timedOut hempty
    have hexpired := congrArg TcpTimeoutPollResult.timeWaitExpired hempty
    have hresent := filterMap_eq_nil_iff.1 hresent (key, c) hmem
    have htimedOut := filterMap_eq_nil_iff.1 htimedOut (key, c) hmem
    have hexpired := filterMap_eq_nil_iff.1 hexpired (key, c) hmem
    cases hpoll : pollConnection key c now with
    | idle => rfl
    | timeWaitExpired => simp [hpoll] at hexpired
    | timedOut => simp [hpoll] at htimedOut
    | retransmit c' segment => simp [hpoll, RetransmissionPoll.segment?] at hresent
  · intro hidle
    have hall : ∀ p ∈ t.connections.toList, pollConnection p.1 p.2 now = .idle :=
      fun p hp => hidle p.1 p.2 ((t.mem_toList_iff p.1 p.2).1 hp)
    have hlists : ∀ {β : Type} (f : TcpConnectionKey × Connection → Option β),
        (∀ p, pollConnection p.1 p.2 now = .idle → f p = none) →
        t.connections.toList.filterMap f = [] := by
      intro β f hf
      exact filterMap_eq_nil_iff.2 fun p hp => hf p (hall p hp)
    unfold pollRetransmissions
    rw [hlists _ fun p hp => by rw [hp]; rfl, hlists _ fun p hp => by rw [hp],
      hlists _ fun p hp => by rw [hp]]

theorem pollRetransmissions_due_iff :
    (t.pollRetransmissions now).2 ≠ {} ↔ Due now t.nextRetransmissionDeadline := by
  rw [due_nextRetransmissionDeadline, Ne, pollRetransmissions_empty_iff]
  simp only [pollConnection_idle_iff, not_forall, not_not, exists_prop]

theorem with_connections_eq {m : Std.ExtTreeMap TcpConnectionKey Connection}
    (h : ∀ key, m[key]? = t.find? key) : { t with connections := m } = t := by
  have hsame : m = t.connections := Std.ExtTreeMap.ext_getElem? fun {key} => h key
  rw [hsame]

theorem pollRetransmissions_idle (h : (t.pollRetransmissions now).2 = {}) :
    (t.pollRetransmissions now).1 = t := by
  have hidle := pollRetransmissions_empty_iff.1 h
  refine with_connections_eq fun key => ?_
  have hfind := t.find?_pollRetransmissions now key
  refine hfind.trans ?_
  cases hc : t.find? key with
  | none => rfl
  | some c =>
    rw [Option.bind_some, hidle key c hc]
    rfl

section Armed

variable (harmed : ∀ key c, t.find? key = some c → c.persistDeadline.isSome = c.persistEligible)

include harmed

theorem pollPersistProbes_empty_iff : (t.pollPersistProbes now).2 = [] ↔
      ∀ key c, t.find? key = some c → ¬ Due now c.persistDeadline := by
  have hprobes : (t.pollPersistProbes now).2 = [] ↔
      ∀ p ∈ t.connections.toList, (pollPersistProbe p.1 p.2 now).2 = none := by
    unfold pollPersistProbes
    simp only [filterMap_eq_nil_iff, Option.map_eq_none_iff]
  rw [hprobes]
  constructor
  · intro h key c hc
    exact (pollPersistProbe_idle (harmed key c hc)).1.1 (h (key, c) ((t.mem_toList_iff key c).2 hc))
  · intro h p hp
    have hc := (t.mem_toList_iff p.1 p.2).1 hp
    exact (pollPersistProbe_idle (harmed p.1 p.2 hc)).1.2 (h p.1 p.2 hc)

theorem pollPersistProbes_due_iff :
    (t.pollPersistProbes now).2 ≠ [] ↔ Due now t.nextPersistDeadline := by
  rw [due_nextPersistDeadline, Ne, pollPersistProbes_empty_iff harmed]
  simp only [not_forall, not_not, exists_prop]

theorem pollPersistProbes_idle (h : (t.pollPersistProbes now).2 = []) :
    (t.pollPersistProbes now).1 = t := by
  have hnot := (pollPersistProbes_empty_iff harmed).1 h
  refine with_connections_eq fun key => ?_
  refine (t.find?_pollPersistProbes now key).trans ?_
  cases hc : t.find? key with
  | none => rfl
  | some c =>
    obtain ⟨hidle, hsame⟩ := pollPersistProbe_idle (harmed key c hc)
    rw [Option.map_some, hsame (hidle.2 (hnot key c hc))]

end Armed

end TcpConnectionTable

/-! ## After a pass -/

/-- Neither deadline has come. -/
def TcpConnectionTable.Settled (t : TcpConnectionTable) (now : TimePoint) : Prop :=
  (∀ d, t.nextRetransmissionDeadline = some d → now < d) ∧
    ∀ d, t.nextPersistDeadline = some d → now < d

theorem not_due_iff {deadline : Option TimePoint} :
    ¬ Due now deadline ↔ ∀ d, deadline = some d → now < d := by
  unfold Due
  simp

theorem TcpConnectionTable.settled_iff {t : TcpConnectionTable} :
    t.Settled now ↔ ∀ key c, t.find? key = some c →
      ¬ Due now c.retransmissionDeadline ∧ ¬ Due now c.persistDeadline := by
  rw [Settled, ← not_due_iff, ← not_due_iff, due_nextRetransmissionDeadline, due_nextPersistDeadline]
  constructor
  · rintro ⟨hretransmission, hpersist⟩ key c hc
    exact ⟨fun h => hretransmission ⟨key, c, hc, h⟩, fun h => hpersist ⟨key, c, hc, h⟩⟩
  · intro h
    exact ⟨fun ⟨key, c, hc, hdue⟩ => (h key c hc).1 hdue, fun ⟨key, c, hc, hdue⟩ => (h key c hc).2 hdue⟩

theorem Run.armed (hs : Run ok s) :
    ∀ key c, s.table.find? key = some c → c.persistDeadline.isSome = c.persistEligible :=
  fun _ _ hc => (hs.noStall hc).armed

theorem Run.settled (hs : Reachable s) (now : TimePoint) :
    ((s.table.pollRetransmissions now).1.pollPersistProbes now).1.Settled now ∧
      ((s.table.pollPersistProbes now).1.pollRetransmissions now).1.Settled now := by
  constructor
  · refine settled_iff.2 fun key c₂ hc₂ => ?_
    rw [find?_pollPersistProbes] at hc₂
    obtain ⟨c₁, hc₁, rfl⟩ := Option.map_eq_some_iff.1 hc₂
    have htimers : TimersOk c₁ := Run.timersOk (.step _ (.pollRetransmissions now) hs trivial) hc₁
    rw [find?_pollRetransmissions] at hc₁
    obtain ⟨c, hc, hkept⟩ := Option.bind_eq_some_iff.1 hc₁
    refine ⟨?_, pollPersistProbe_not_due htimers⟩
    rw [pollPersistProbe_retransmissionDeadline]
    exact pollConnection_not_due (Run.timersOk hs hc) hkept
  · refine settled_iff.2 fun key c₂ hc₂ => ?_
    rw [find?_pollRetransmissions] at hc₂
    obtain ⟨c₁, hc₁, hkept⟩ := Option.bind_eq_some_iff.1 hc₂
    have htimers : TimersOk c₁ := Run.timersOk (.step _ (.pollPersistProbes now) hs trivial) hc₁
    rw [find?_pollPersistProbes] at hc₁
    obtain ⟨c, hc, rfl⟩ := Option.map_eq_some_iff.1 hc₁
    refine ⟨pollConnection_not_due htimers hkept, ?_⟩
    rw [pollConnection_persistDeadline hkept]
    exact pollPersistProbe_not_due (Run.timersOk hs hc)

theorem Run.retransmissions_cleared (hs : Reachable s) (now : TimePoint) :
    ¬ Due now (s.table.pollRetransmissions now).1.nextRetransmissionDeadline := by
  rw [due_nextRetransmissionDeadline]
  rintro ⟨key, c', hc', hdue⟩
  rw [find?_pollRetransmissions] at hc'
  obtain ⟨c, hc, hkept⟩ := Option.bind_eq_some_iff.1 hc'
  exact pollConnection_not_due (Run.timersOk hs hc) hkept hdue

theorem Run.persists_cleared (hs : Reachable s) (now : TimePoint) :
    ¬ Due now (s.table.pollPersistProbes now).1.nextPersistDeadline := by
  rw [due_nextPersistDeadline]
  rintro ⟨key, c', hc', hdue⟩
  rw [find?_pollPersistProbes] at hc'
  obtain ⟨c, hc, rfl⟩ := Option.map_eq_some_iff.1 hc'
  exact pollPersistProbe_not_due (Run.timersOk hs hc) hdue

/-- What the deadlines of a table and its polls at `now` have to do with each other. -/
structure TimersAgree (t : TcpConnectionTable) (now : TimePoint) : Prop where
  retransmission : (t.pollRetransmissions now).2 ≠ {} ↔
    ∃ d, t.nextRetransmissionDeadline = some d ∧ d ≤ now
  persist : (t.pollPersistProbes now).2 ≠ [] ↔ ∃ d, t.nextPersistDeadline = some d ∧ d ≤ now
  retransmissionIdle : (t.pollRetransmissions now).2 = {} → (t.pollRetransmissions now).1 = t
  persistIdle : (t.pollPersistProbes now).2 = [] → (t.pollPersistProbes now).1 = t
  retransmissionCleared : ∀ d,
    (t.pollRetransmissions now).1.nextRetransmissionDeadline = some d → now < d
  persistCleared : ∀ d, (t.pollPersistProbes now).1.nextPersistDeadline = some d → now < d
  settled : ((t.pollRetransmissions now).1.pollPersistProbes now).1.Settled now ∧
    ((t.pollPersistProbes now).1.pollRetransmissions now).1.Settled now
  retransmissionTwice : (t.pollRetransmissions now).1.pollRetransmissions now =
    ((t.pollRetransmissions now).1, {})
  persistTwice : (t.pollPersistProbes now).1.pollPersistProbes now =
    ((t.pollPersistProbes now).1, [])

/-- **Timers and polls agree** in every reachable table, at every time. -/
theorem timers_agree {s : Traced} (hs : Reachable s) (now : TimePoint) :
    TimersAgree s.table now where
  retransmission := pollRetransmissions_due_iff
  persist := pollPersistProbes_due_iff (Run.armed hs)
  retransmissionIdle := pollRetransmissions_idle
  persistIdle := pollPersistProbes_idle (Run.armed hs)
  retransmissionCleared := not_due_iff.1 (Run.retransmissions_cleared hs now)
  persistCleared := not_due_iff.1 (Run.persists_cleared hs now)
  settled := Run.settled hs now
  retransmissionTwice := by
    have hempty := not_not.1 (mt pollRetransmissions_due_iff.1 (Run.retransmissions_cleared hs now))
    exact Prod.ext (pollRetransmissions_idle hempty) hempty
  persistTwice := by
    have hs' : Reachable (s.step (.pollPersistProbes now)) := .step _ _ hs trivial
    have harmed := Run.armed hs'
    have hempty := not_not.1 (mt (pollPersistProbes_due_iff harmed).1 (Run.persists_cleared hs now))
    exact Prod.ext (pollPersistProbes_idle harmed hempty) hempty

/-- The persist timer of a closed window runs for one second. -/
theorem timers_agree_example :
    (exampleRun [] exampleZeroWindow).table.nextPersistDeadline = some 1000000000 ∧
      ((exampleRun [] exampleZeroWindow).table.pollPersistProbes 1000000000).2 ≠ [] ∧
      ((exampleRun [] exampleZeroWindow).table.pollPersistProbes 999999999).1 =
        (exampleRun [] exampleZeroWindow).table := by
  have hdeadline : (exampleRun [] exampleZeroWindow).table.nextPersistDeadline =
      some 1000000000 := by
    decide +kernel
  have hagree := timers_agree (exampleRun_reachable [] exampleZeroWindow)
  refine ⟨hdeadline, (hagree 1000000000).persist.2 ⟨_, hdeadline, le_rfl⟩, ?_⟩
  refine (hagree 999999999).persistIdle (not_not.1 (mt (hagree 999999999).persist.1 ?_))
  rintro ⟨d, hd, hle⟩
  rw [hdeadline] at hd
  cases hd
  exact absurd hle (by decide)

end Wirestack
