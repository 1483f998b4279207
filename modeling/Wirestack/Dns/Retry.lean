import Wirestack.Dns.Labels
import Wirestack.Dns.Session

set_option autoImplicit false

/-! # The retries of a lookup

Once a query was begun, only timeouts and datagrams act on the session. It sends the query at most
three times, waits at least a second after the first time and two after the second, and once it is
resolved or has failed nothing changes it any more. This needs no assumption on the times of the
calls: a deadline is set from the time of the transmission it belongs to. -/

namespace Wirestack

open List

inductive DnsCall where
  | poll (now : TimePoint)
  | datagram (datagram : DnsDatagram)

/-- A lookup in progress: the session, the queries sent so far with their times, oldest first, how often
    a timeout was reported, and how often the state went from `Pending` to another one. -/
structure DnsLookup where
  session : DnsClientSession
  transmissions : List (TimePoint × List Byte)
  timeouts : ℕ := 0
  departures : ℕ := 0

/-- Whether a call took the session out of `Pending`. -/
def departed (before after : DnsClientSession) : ℕ :=
  if before.state = .pending ∧ after.state ≠ .pending then 1 else 0

def DnsLookup.step (l : DnsLookup) : DnsCall → DnsLookup
  | .poll now =>
    let (session, result) := pollDnsTimeout l.session now
    { session := session
      transmissions := l.transmissions ++ result.retransmit.toList.map fun bytes => (now, bytes)
      timeouts := l.timeouts + if result.timedOut then 1 else 0
      departures := l.departures + departed l.session session }
  | .datagram datagram =>
    let (session, _) := handleDnsResponse l.session datagram
    { l with session := session, departures := l.departures + departed l.session session }

/-- The lookup from the successful `beginDnsQuery` on. -/
def DnsLookup.run (begun : DnsClientSession) (now : TimePoint) (bytes : List Byte)
    (calls : List DnsCall) : DnsLookup :=
  calls.foldl DnsLookup.step { session := begun, transmissions := [(now, bytes)] }

/-! ## What every call keeps -/

structure DnsLookup.Scheduled (bytes : List Byte) (l : DnsLookup) : Prop where
  query : l.session.queryBytes = bytes
  count : l.transmissions.length = l.session.transmitCount
  limit : l.session.transmitCount ≤ kDnsMaxTransmissions
  same : ∀ sent ∈ l.transmissions, sent.2 = bytes
  spaced : ∀ i earlier later, l.transmissions[i]? = some earlier →
    l.transmissions[i + 1]? = some later → earlier.1 + kDnsInitialInterval * 2 ^ i ≤ later.1
  /-- The deadline belongs to the last transmission. -/
  waiting : l.session.state = .pending → ∃ i last, l.session.transmitCount = i + 1 ∧
    l.transmissions[i]? = some last ∧ l.session.currentInterval = kDnsInitialInterval * 2 ^ i ∧
    l.session.nextDeadline = some (last.1 + l.session.currentInterval)
  ended : l.session.state ≠ .pending → l.session.nextDeadline = none
  address : l.session.resolvedAddress.isSome ↔ l.session.state = .resolved
  departures : l.departures = if l.session.state = .pending then 0 else 1
  timeouts : l.timeouts ≤ l.departures

section

variable {bytes : List Byte} {l : DnsLookup}

theorem departed_self (session : DnsClientSession) : departed session session = 0 :=
  if_neg fun h => h.2 h.1

theorem departed_of_pending {before after : DnsClientSession} (h : before.state = .pending)
    (h' : after.state ≠ .pending) : departed before after = 1 := if_pos ⟨h, h'⟩

theorem nextInterval {interval : Duration} {i : ℕ} (h : interval = kDnsInitialInterval * 2 ^ i)
    (hi : i + 1 < kDnsMaxTransmissions) :
    min (interval * 2) kDnsMaxInterval = kDnsInitialInterval * 2 ^ (i + 1) := by
  have hcases : i = 0 ∨ i = 1 := by
    rw [kDnsMaxTransmissions] at hi
    omega
  obtain rfl | rfl := hcases <;> rw [h] <;> decide

theorem DnsLookup.Scheduled.leave (h : l.Scheduled bytes) (hpending : l.session.state = .pending)
    {session : DnsClientSession} (hquery : session.queryBytes = l.session.queryBytes)
    (hcount : session.transmitCount = l.session.transmitCount) (hstate : session.state ≠ .pending)
    (hdeadline : session.nextDeadline = none)
    (haddress : session.resolvedAddress.isSome ↔ session.state = .resolved) {reported : ℕ}
    (hreported : reported ≤ 1) :
    ({ session := session
       transmissions := l.transmissions
       timeouts := l.timeouts + reported
       departures := l.departures + departed l.session session } : DnsLookup).Scheduled bytes := by
  have hnone : l.departures = 0 := by rw [h.departures, if_pos hpending]
  have htimeouts := h.timeouts
  exact
    { query := hquery.trans h.query
      count := h.count.trans hcount.symm
      limit := hcount.le.trans h.limit
      same := h.same
      spaced := h.spaced
      waiting := fun hp => absurd hp hstate
      ended := fun _ => hdeadline
      address := haddress
      departures := by rw [departed_of_pending hpending hstate, hnone, if_neg hstate]
      timeouts := by
        dsimp only
        rw [departed_of_pending hpending hstate]
        omega }

theorem DnsLookup.Scheduled.retry (h : l.Scheduled bytes) {now deadline : TimePoint}
    (hpending : l.session.state = .pending) (hdeadline : l.session.nextDeadline = some deadline)
    (hdue : deadline ≤ now) (hcount : l.session.transmitCount < kDnsMaxTransmissions) :
    ({ session := { l.session with
           transmitCount := l.session.transmitCount + 1
           currentInterval := min (l.session.currentInterval * 2) kDnsMaxInterval
           nextDeadline := some (now + min (l.session.currentInterval * 2) kDnsMaxInterval) }
       transmissions := l.transmissions ++ [(now, l.session.queryBytes)]
       timeouts := l.timeouts
       departures := l.departures } : DnsLookup).Scheduled bytes := by
  obtain ⟨i, last, hi, hlast, hinterval, harmed⟩ := h.waiting hpending
  have hlength : l.transmissions.length = i + 1 := h.count.trans hi
  rw [hdeadline, Option.some_inj] at harmed
  exact
    { query := h.query
      count := by
        rw [List.length_append, h.count]
        rfl
      limit := hcount
      same := by
        intro sent hsent
        rcases mem_append.1 hsent with hsent | hsent
        · exact h.same sent hsent
        · rw [mem_singleton.1 hsent]
          exact h.query
      spaced := by
        intro j earlier later hearlier hlater
        have hj : j + 1 < i + 2 := by
          have hlt := (List.getElem?_eq_some_iff.1 hlater).1
          rwa [List.length_append, hlength] at hlt
        rw [List.getElem?_append_left (by omega)] at hearlier
        obtain hold | rfl : j < i ∨ j = i := by omega
        · rw [List.getElem?_append_left (by omega)] at hlater
          exact h.spaced j earlier later hearlier hlater
        · -- the last transmission and the new one
          rw [getElem?_append_right hlength.le, hlength, Nat.sub_self] at hlater
          cases hlater
          rw [hearlier] at hlast
          cases hlast
          rwa [← hinterval, ← harmed]
      waiting := fun _ => by
        refine ⟨i + 1, (now, l.session.queryBytes), congrArg (· + 1) hi, ?_,
          nextInterval hinterval (hi ▸ hcount), rfl⟩
        rw [getElem?_append_right hlength.le, hlength, Nat.sub_self]
        rfl
      ended := fun hended => absurd hpending hended
      address := h.address
      departures := h.departures
      timeouts := h.timeouts }

theorem DnsLookup.Scheduled.poll (h : l.Scheduled bytes) (now : TimePoint) :
    (l.step (.poll now)).Scheduled bytes := by
  have hstep : l.step (.poll now) =
      { session := (pollDnsTimeout l.session now).1
        transmissions := l.transmissions ++
          (pollDnsTimeout l.session now).2.retransmit.toList.map fun bytes => (now, bytes)
        timeouts := l.timeouts + if (pollDnsTimeout l.session now).2.timedOut then 1 else 0
        departures := l.departures + departed l.session (pollDnsTimeout l.session now).1 } := rfl
  rw [hstep]
  have hcases := pollDnsTimeout_cases l.session now
  generalize pollDnsTimeout l.session now = out at hcases ⊢
  cases hcases with
  | idle => rwa [departed_self, Option.toList_none, map_nil, append_nil]
  | timedOut deadline hpending hdeadline =>
    have hunresolved : ¬l.session.resolvedAddress.isSome = true := by
      rw [h.address, hpending]
      decide
    rw [Option.toList_none, map_nil, append_nil]
    refine h.leave hpending ?_ ?_ ?_ ?_ ?_ le_rfl
    · rfl
    · rfl
    · exact nofun
    · rfl
    · exact iff_of_false hunresolved nofun
  | retried deadline hpending hdeadline hdue hcount =>
    have hstays : departed l.session { l.session with
          transmitCount := l.session.transmitCount + 1
          currentInterval := min (l.session.currentInterval * 2) kDnsMaxInterval
          nextDeadline := some (now + min (l.session.currentInterval * 2) kDnsMaxInterval) } = 0 :=
      if_neg fun h => h.2 hpending
    rw [hstays]
    exact h.retry hpending hdeadline hdue hcount

theorem parseDnsResponse_address {payload hostname : List Byte} {transactionId : UInt16}
    (h : (parseDnsResponse payload transactionId hostname).outcome = .resolved) :
    (parseDnsResponse payload transactionId hostname).address.isSome = true := by
  obtain ⟨offset, rr, question, owner, -, haddress, -⟩ := parseDnsResponse_spells h
  rw [haddress]
  rfl

theorem DnsLookup.Scheduled.datagram (h : l.Scheduled bytes) (datagram : DnsDatagram) :
    (l.step (.datagram datagram)).Scheduled bytes := by
  have hstep : l.step (.datagram datagram) = { l with
        session := (handleDnsResponse l.session datagram).1
        departures := l.departures + departed l.session (handleDnsResponse l.session datagram).1 } :=
    rfl
  rw [hstep]
  have hcases := handleDnsResponse_cases l.session datagram
  generalize handleDnsResponse l.session datagram = out at hcases ⊢
  cases hcases with
  | ignored => rwa [departed_self]
  | resolved hpending heligible hresolved =>
    refine h.leave hpending ?_ ?_ ?_ ?_ ?_ (Nat.zero_le 1)
    · rfl
    · rfl
    · exact nofun
    · rfl
    · exact iff_of_true (parseDnsResponse_address hresolved) rfl
  | failed hpending reason =>
    have hunresolved : ¬l.session.resolvedAddress.isSome = true := by
      rw [h.address, hpending]
      decide
    refine h.leave hpending ?_ ?_ ?_ ?_ ?_ (Nat.zero_le 1)
    · rfl
    · rfl
    · exact nofun
    · rfl
    · exact iff_of_false hunresolved nofun

theorem DnsLookup.Scheduled.run {begun : DnsClientSession} {now : TimePoint}
    (h : ({ session := begun, transmissions := [(now, bytes)] } : DnsLookup).Scheduled bytes)
    (calls : List DnsCall) : (DnsLookup.run begun now bytes calls).Scheduled bytes := by
  unfold DnsLookup.run
  induction calls using reverseRecOn with
  | nil => exact h
  | append_singleton calls call ih =>
    rw [foldl_append]
    cases call with
    | poll now => exact ih.poll now
    | datagram datagram => exact ih.datagram datagram

theorem beginDnsQuery_scheduled {session begun : DnsClientSession} {query : DnsQuery}
    {now : TimePoint} (h : beginDnsQuery session query now = (begun, some bytes)) :
    ({ session := begun, transmissions := [(now, bytes)] } : DnsLookup).Scheduled bytes := by
  unfold beginDnsQuery at h
  cases hquery : serializeDnsQuery query with
  | none =>
    simp [hquery] at h
  | some written =>
    rw [hquery] at h
    cases h
    exact
      { query := rfl
        count := rfl
        limit := show 1 ≤ 3 by decide
        same := fun sent hsent => by rw [mem_singleton.1 hsent]
        spaced := fun i earlier later _ hlater => nomatch hlater
        waiting := fun _ => ⟨0, (now, bytes), rfl, rfl, (mul_one _).symm, rfl⟩
        ended := fun hended => absurd rfl hended
        address := iff_of_false Bool.false_ne_true nofun
        departures := rfl
        timeouts := le_rfl }

end

theorem dnsSession_absorbing {session : DnsClientSession} (h : session.state ≠ .pending) :
    (∀ now, pollDnsTimeout session now = (session, {})) ∧
      ∀ datagram, handleDnsResponse session datagram = (session, false) :=
  ⟨fun _ => if_pos h, fun _ => if_pos h⟩

theorem handleDnsResponse_ignored {session : DnsClientSession} {datagram : DnsDatagram}
    (h : (handleDnsResponse session datagram).2 = false) :
    (handleDnsResponse session datagram).1 = session := by
  have hcases := handleDnsResponse_cases session datagram
  generalize handleDnsResponse session datagram = out at hcases h ⊢
  cases hcases with
  | ignored => rfl
  | resolved hpending heligible hresolved | failed hpending reason => exact nomatch h

/-- **A lookup is bounded and its end states are absorbing.** After a query was begun, whatever calls
    follow at whatever times: the query goes out at most three times, byte for byte the same, the
    second time at least a second after the first and the third at least two after the second; a
    datagram that is ignored changes nothing; the session leaves `Pending` at most once, and then
    neither function changes or reports anything; a deadline is set exactly while it is pending and an
    address exactly when it is resolved; and at most one timeout is reported. -/
theorem dnsLookup_bounded {session begun : DnsClientSession} {query : DnsQuery} {now : TimePoint}
    {bytes : List Byte} (hbegun : beginDnsQuery session query now = (begun, some bytes))
    (calls : List DnsCall) :
    let l := DnsLookup.run begun now bytes calls
    l.transmissions.length ≤ kDnsMaxTransmissions ∧
    (∀ sent ∈ l.transmissions, sent.2 = bytes) ∧
    (∀ i earlier later, l.transmissions[i]? = some earlier → l.transmissions[i + 1]? = some later →
      earlier.1 + milliseconds 1000 * 2 ^ i ≤ later.1) ∧
    (∀ datagram, (handleDnsResponse l.session datagram).2 = false →
      (handleDnsResponse l.session datagram).1 = l.session) ∧
    l.departures ≤ 1 ∧
    (l.session.state ≠ .pending → (∀ now, pollDnsTimeout l.session now = (l.session, {})) ∧
      ∀ datagram, handleDnsResponse l.session datagram = (l.session, false)) ∧
    (l.session.nextDeadline.isSome ↔ l.session.state = .pending) ∧
    (l.session.resolvedAddress.isSome ↔ l.session.state = .resolved) ∧
    l.timeouts ≤ 1 := by
  intro l
  have h : l.Scheduled bytes := (beginDnsQuery_scheduled hbegun).run calls
  have hdepartures : l.departures ≤ 1 := by
    rw [h.departures]
    split_ifs <;> decide
  refine ⟨h.count.le.trans h.limit, h.same, h.spaced, fun _ => handleDnsResponse_ignored, hdepartures,
    dnsSession_absorbing, ?_, h.address, h.timeouts.trans hdepartures⟩
  constructor
  · intro hsome
    by_contra hended
    simp [h.ended hended] at hsome
  · intro hpending
    obtain ⟨_, _, -, -, -, hdeadline⟩ := h.waiting hpending
    rw [hdeadline]
    rfl

/-- A lookup that is never answered: the retries after one and three seconds, the timeout after seven. -/
theorem dnsLookup_bounded_example :
    ∃ begun bytes, beginDnsQuery (configuredSession ⟨Vector.replicate 4 9⟩ 53 []) ⟨7, ascii "a"⟩ 0 =
        (begun, some bytes) ∧
      ((DnsLookup.run begun 0 bytes [.poll (milliseconds 1000), .poll (milliseconds 2999),
        .poll (milliseconds 3000), .poll (milliseconds 7000)]).transmissions.map Prod.fst =
          [0, milliseconds 1000, milliseconds 3000]) ∧
      (DnsLookup.run begun 0 bytes [.poll (milliseconds 1000), .poll (milliseconds 2999),
        .poll (milliseconds 3000), .poll (milliseconds 7000)]).timeouts ≤ 1 := by
  have hbegun : beginDnsQuery (configuredSession ⟨Vector.replicate 4 9⟩ 53 []) ⟨7, ascii "a"⟩ 0 =
      (_, some _) := rfl
  exact ⟨_, _, hbegun, by decide +kernel, (dnsLookup_bounded hbegun _).2.2.2.2.2.2.2.2⟩

end Wirestack
