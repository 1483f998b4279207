import Wirestack.Dns.Message

set_option autoImplicit false

/-! # The DNS client session (`dns.hpp`, `dns.cpp`)

A session is configured with its server and hostname, sends a query, repeats it on a timer and waits
for the answer. What a run has sent and which datagram it took for the answer are recorded beside the
session (`DnsTrace`).

A session is `Pending` with transaction identifier 0 from the moment it is configured, so a datagram
with identifier 0 is taken for the answer before any query was sent. That is the only way a session
resolves without an answer to its query (`dns_answers_query_iff`). -/

namespace Wirestack

open List Option

def kDnsClientSourcePort : UInt16 := 53000
def kDnsInitialInterval : Duration := milliseconds 1000
def kDnsMaxInterval : Duration := milliseconds 4000
def kDnsMaxTransmissions : ℕ := 3

inductive DnsClientState where
  | pending
  | resolved
  | failed
  deriving DecidableEq, Repr

structure DnsClientSession where
  serverIp : Ipv4Address
  serverPort : UInt16 := 0
  localPort : UInt16 := kDnsClientSourcePort
  hostname : List Byte
  transactionId : UInt16 := 0
  queryBytes : List Byte := []
  transmitCount : ℕ := 0
  nextDeadline : Option TimePoint := none
  currentInterval : Duration := kDnsInitialInterval
  state : DnsClientState := .pending
  resolvedAddress : Option Ipv4Address := none
  failureReason : Option DnsResponseOutcome := none
  deriving DecidableEq, Repr

/-- The session as `main` sets it up. -/
def configuredSession (serverIp : Ipv4Address) (serverPort : UInt16) (hostname : List Byte) :
    DnsClientSession :=
  { serverIp := serverIp, serverPort := serverPort, hostname := hostname }

def beginDnsQuery (session : DnsClientSession) (query : DnsQuery) (now : TimePoint) :
    DnsClientSession × Option (List Byte) :=
  match serializeDnsQuery query with
  | none => (session, none)
  | some bytes =>
    ({ session with
       hostname := query.hostname
       transactionId := query.transactionId
       queryBytes := bytes
       transmitCount := 1
       currentInterval := kDnsInitialInterval
       nextDeadline := some (now + kDnsInitialInterval)
       state := .pending
       resolvedAddress := none
       failureReason := none },
     some bytes)

structure DnsPollResult where
  retransmit : Option (List Byte) := none
  timedOut : Bool := false
  deriving DecidableEq, Repr

def pollDnsTimeout (session : DnsClientSession) (now : TimePoint) :
    DnsClientSession × DnsPollResult :=
  if session.state ≠ .pending then (session, {})
  else
    match session.nextDeadline with
    | none => (session, {})
    | some deadline =>
      if now < deadline then (session, {})
      else if session.transmitCount ≥ kDnsMaxTransmissions then
        ({ session with state := .failed, failureReason := none, nextDeadline := none },
         { timedOut := true })
      else
        let interval := min (session.currentInterval * 2) kDnsMaxInterval
        ({ session with
           transmitCount := session.transmitCount + 1
           currentInterval := interval
           nextDeadline := some (now + interval) },
         { retransmit := some session.queryBytes })

/-- A UDP datagram as it reaches the session. -/
structure DnsDatagram where
  sourceIp : Ipv4Address
  sourcePort : UInt16
  destinationPort : UInt16
  payload : List Byte
  deriving DecidableEq, Repr

/-- The check of addresses and ports in front of the parser. -/
def DnsClientSession.eligible (session : DnsClientSession) (datagram : DnsDatagram) : Prop :=
  datagram.sourceIp = session.serverIp ∧ datagram.sourcePort = session.serverPort ∧
    datagram.destinationPort = session.localPort

instance (session : DnsClientSession) (datagram : DnsDatagram) :
    Decidable (session.eligible datagram) :=
  inferInstanceAs (Decidable (_ ∧ _ ∧ _))

def handleDnsResponse (session : DnsClientSession) (datagram : DnsDatagram) :
    DnsClientSession × Bool :=
  if session.state ≠ .pending then (session, false)
  else if ¬session.eligible datagram then (session, false)
  else
    let parsed := parseDnsResponse datagram.payload session.transactionId session.hostname
    match parsed.outcome with
    | .wrongTransaction | .wrongQuestion | .malformed | .truncated => (session, false)
    | .resolved =>
      ({ session with
         state := .resolved, resolvedAddress := parsed.address, nextDeadline := none },
       true)
    | .noAnswer | .nxDomain | .serverFailure | .refused =>
      ({ session with
         state := .failed, failureReason := some parsed.outcome, nextDeadline := none },
       true)

/-! ## Runs -/

inductive DnsOp where
  | beginQuery (query : DnsQuery) (now : TimePoint)
  | poll (now : TimePoint)
  | datagram (datagram : DnsDatagram)

/-- A session together with the queries it handed out for transmission, oldest first, and the last
    datagram it accepted. -/
structure DnsTrace where
  session : DnsClientSession
  transmitted : List (List Byte) := []
  accepted : Option DnsDatagram := none

def DnsTrace.step (t : DnsTrace) : DnsOp → DnsTrace
  | .beginQuery query now =>
    let (session, bytes) := beginDnsQuery t.session query now
    { t with session := session, transmitted := t.transmitted ++ bytes.toList }
  | .poll now =>
    let (session, result) := pollDnsTimeout t.session now
    { t with session := session, transmitted := t.transmitted ++ result.retransmit.toList }
  | .datagram datagram =>
    let (session, changed) := handleDnsResponse t.session datagram
    { t with session := session, accepted := if changed then some datagram else t.accepted }

def DnsTrace.run (start : DnsClientSession) (ops : List DnsOp) : DnsTrace :=
  ops.foldl DnsTrace.step { session := start }

theorem DnsTrace.run_snoc (start : DnsClientSession) (ops : List DnsOp) (op : DnsOp) :
    DnsTrace.run start (ops ++ [op]) = (DnsTrace.run start ops).step op := by
  rw [run, foldl_append]
  rfl

/-! ## What one operation does -/

/-- What `handleDnsResponse` can do. -/
inductive DnsHandled (session : DnsClientSession) (datagram : DnsDatagram) :
    DnsClientSession × Bool → Prop
  | ignored : DnsHandled session datagram (session, false)
  | resolved (hpending : session.state = .pending) (heligible : session.eligible datagram)
      (hresolved : (parseDnsResponse datagram.payload session.transactionId
        session.hostname).outcome = .resolved) :
      DnsHandled session datagram
        ({ session with
           state := .resolved
           resolvedAddress := (parseDnsResponse datagram.payload session.transactionId
             session.hostname).address
           nextDeadline := none },
         true)
  | failed (hpending : session.state = .pending) (reason : DnsResponseOutcome) :
      DnsHandled session datagram
        ({ session with state := .failed, failureReason := some reason, nextDeadline := none },
         true)

theorem handleDnsResponse_cases (session : DnsClientSession) (datagram : DnsDatagram) :
    DnsHandled session datagram (handleDnsResponse session datagram) := by
  unfold handleDnsResponse
  by_cases hpending : session.state = .pending
  · rw [if_neg (not_not.2 hpending)]
    by_cases heligible : session.eligible datagram
    · rw [if_neg (not_not.2 heligible)]
      dsimp only
      cases houtcome : (parseDnsResponse datagram.payload session.transactionId
          session.hostname).outcome with
      | resolved => exact .resolved hpending heligible houtcome
      | noAnswer | nxDomain | serverFailure | refused => exact .failed hpending _
      | malformed | truncated | wrongTransaction | wrongQuestion => exact .ignored
    · rw [if_pos heligible]
      exact .ignored
  · rw [if_pos hpending]
    exact .ignored

/-- What `pollDnsTimeout` can do. -/
inductive DnsPolled (session : DnsClientSession) (now : TimePoint) :
    DnsClientSession × DnsPollResult → Prop
  | idle : DnsPolled session now (session, {})
  | timedOut (deadline : TimePoint) (hpending : session.state = .pending)
      (hdeadline : session.nextDeadline = some deadline) (hdue : deadline ≤ now)
      (hcount : kDnsMaxTransmissions ≤ session.transmitCount) :
      DnsPolled session now
        ({ session with state := .failed, failureReason := none, nextDeadline := none },
         { timedOut := true })
  | retried (deadline : TimePoint) (hpending : session.state = .pending)
      (hdeadline : session.nextDeadline = some deadline) (hdue : deadline ≤ now)
      (hcount : session.transmitCount < kDnsMaxTransmissions) :
      DnsPolled session now
        ({ session with
           transmitCount := session.transmitCount + 1
           currentInterval := min (session.currentInterval * 2) kDnsMaxInterval
           nextDeadline := some (now + min (session.currentInterval * 2) kDnsMaxInterval) },
         { retransmit := some session.queryBytes })

theorem pollDnsTimeout_cases (session : DnsClientSession) (now : TimePoint) :
    DnsPolled session now (pollDnsTimeout session now) := by
  unfold pollDnsTimeout
  by_cases hpending : session.state = .pending
  · rw [if_neg (not_not.2 hpending)]
    cases hdeadline : session.nextDeadline with
    | none => exact .idle
    | some deadline =>
      dsimp only
      split_ifs with hearly hcount
      · exact .idle
      · exact .timedOut deadline hpending hdeadline (not_lt.1 hearly) hcount
      · exact .retried deadline hpending hdeadline (not_lt.1 hearly) (not_le.1 hcount)
  · rw [if_pos hpending]
    exact .idle

theorem serializeDnsQuery_transactionId {query : DnsQuery} {bytes : List Byte}
    (h : serializeDnsQuery query = some bytes) :
    readBigEndian16 bytes 0 = query.transactionId := by
  have hbytes : bytes = query.bytes := by
    unfold serializeDnsQuery at h
    split at h
    · exact nomatch h
    · split_ifs at h
      exact (some.inj h).symm
  rw [hbytes, readBigEndian16_eq]
  exact bigEndianWord_write ..

/-! ## Answers -/

/-- The last datagram the session accepted answers the query it sent last: it has the query's
    identifier and comes from the server. -/
def DnsTrace.AnswersQuery (t : DnsTrace) (start : DnsClientSession) : Prop :=
  ∃ query datagram, t.transmitted.getLast? = some query ∧ t.accepted = some datagram ∧
    readBigEndian16 datagram.payload 0 = readBigEndian16 query 0 ∧
    datagram.sourceIp = start.serverIp ∧ datagram.sourcePort = start.serverPort

/-- A datagram that the session takes for an answer although it has asked nothing. -/
def DnsClientSession.UnaskedAnswer (start : DnsClientSession) (datagram : DnsDatagram) : Prop :=
  start.eligible datagram ∧
    (parseDnsResponse datagram.payload 0 start.hostname).outcome = .resolved

/-- What holds of every run of a configured session. Before the first query only a datagram can
    change the session, and it ends it. -/
structure DnsInv (start : DnsClientSession) (ops : List DnsOp) (t : DnsTrace) : Prop where
  serverIp : t.session.serverIp = start.serverIp
  serverPort : t.session.serverPort = start.serverPort
  asked : t.transmitted ≠ [] → 0 < t.session.transmitCount ∧
    t.transmitted.getLast? = some t.session.queryBytes ∧
    readBigEndian16 t.session.queryBytes 0 = t.session.transactionId
  unasked : t.transmitted = [] → t.session = start ∨ t.session.state = .failed ∨
    ∃ before datagram, before ++ [DnsOp.datagram datagram] <+: ops ∧
      (DnsTrace.run start before).session = start ∧ start.UnaskedAnswer datagram
  silent : t.transmitted = [] → t.session.nextDeadline = none
  answered : t.session.state = .resolved → ∃ datagram, t.accepted = some datagram ∧
    readBigEndian16 datagram.payload 0 = t.session.transactionId ∧
    datagram.sourceIp = t.session.serverIp ∧ datagram.sourcePort = t.session.serverPort

section

variable {start : DnsClientSession} {ops : List DnsOp} {t : DnsTrace}

theorem DnsInv.extend (h : DnsInv start ops t) (op : DnsOp) : DnsInv start (ops ++ [op]) t :=
  { h with
    unasked := fun hnil => (h.unasked hnil).imp_right fun hrest =>
      hrest.imp_right fun ⟨before, datagram, hbefore, hunasked⟩ =>
        ⟨before, datagram, hbefore.trans (prefix_append ops [op]), hunasked⟩ }

theorem DnsInv.beginQuery (h : DnsInv start ops t) (query : DnsQuery) (now : TimePoint) :
    DnsInv start (ops ++ [.beginQuery query now]) (t.step (.beginQuery query now)) := by
  have hstep : t.step (.beginQuery query now) = { t with
        session := (beginDnsQuery t.session query now).1
        transmitted := t.transmitted ++ (beginDnsQuery t.session query now).2.toList } := rfl
  rw [hstep]
  unfold beginDnsQuery
  cases hbytes : serializeDnsQuery query with
  | none =>
    rw [toList_none, append_nil]
    exact h.extend _
  | some bytes =>
    rw [toList_some]
    exact
      { serverIp := h.serverIp
        serverPort := h.serverPort
        asked := fun _ => ⟨one_pos, getLast?_concat, serializeDnsQuery_transactionId hbytes⟩
        unasked := fun hnil => absurd hnil (append_ne_nil_of_right_ne_nil _ (by simp))
        silent := fun hnil => absurd hnil (append_ne_nil_of_right_ne_nil _ (by simp))
        answered := nofun }

theorem DnsInv.poll (h : DnsInv start ops t) (now : TimePoint) :
    DnsInv start (ops ++ [.poll now]) (t.step (.poll now)) := by
  have hstep : t.step (.poll now) = { t with
        session := (pollDnsTimeout t.session now).1
        transmitted := t.transmitted ++ (pollDnsTimeout t.session now).2.retransmit.toList } := rfl
  rw [hstep]
  have hcases := pollDnsTimeout_cases t.session now
  generalize pollDnsTimeout t.session now = out at hcases ⊢
  cases hcases with
  | idle =>
    rw [toList_none, append_nil]
    exact h.extend _
  | timedOut deadline hpending hdeadline =>
    have hasked : t.transmitted ≠ [] := fun hnil => by
      simp [h.silent hnil] at hdeadline
    rw [toList_none, append_nil]
    exact
      { serverIp := h.serverIp
        serverPort := h.serverPort
        asked := h.asked
        unasked := fun hnil => absurd hnil hasked
        silent := fun _ => rfl
        answered := nofun }
  | retried deadline hpending hdeadline =>
    have hasked : t.transmitted ≠ [] := fun hnil => by
      simp [h.silent hnil] at hdeadline
    obtain ⟨-, -, hid⟩ := h.asked hasked
    rw [toList_some]
    exact
      { serverIp := h.serverIp
        serverPort := h.serverPort
        asked := fun _ => ⟨Nat.succ_pos _, getLast?_concat, hid⟩
        unasked := fun hnil => absurd hnil (append_ne_nil_of_right_ne_nil _ (by simp))
        silent := fun hnil => absurd hnil (append_ne_nil_of_right_ne_nil _ (by simp))
        answered := fun hresolved => by
          rw [hpending] at hresolved
          exact nomatch hresolved }

theorem DnsInv.datagram (h : DnsInv start ops (DnsTrace.run start ops))
    (hid : start.transactionId = 0) (datagram : DnsDatagram) :
    DnsInv start (ops ++ [.datagram datagram])
      ((DnsTrace.run start ops).step (.datagram datagram)) := by
  generalize ht : DnsTrace.run start ops = t at h
  have hstep : t.step (.datagram datagram) = { t with
        session := (handleDnsResponse t.session datagram).1
        accepted := if (handleDnsResponse t.session datagram).2 then some datagram
          else t.accepted } := rfl
  rw [hstep]
  have hcases := handleDnsResponse_cases t.session datagram
  generalize handleDnsResponse t.session datagram = out at hcases ⊢
  cases hcases with
  | ignored => exact h.extend _
  | failed hpending reason =>
    exact
      { serverIp := h.serverIp
        serverPort := h.serverPort
        asked := h.asked
        unasked := fun _ => .inr (.inl rfl)
        silent := fun _ => rfl
        answered := nofun }
  | resolved hpending heligible hresolved =>
    refine
      { serverIp := h.serverIp
        serverPort := h.serverPort
        asked := h.asked
        unasked := fun hnil => .inr (.inr ?_)
        silent := fun _ => rfl
        answered := fun _ => ⟨datagram, rfl, parseDnsResponse_transactionId hresolved,
          heligible.1, heligible.2.1⟩ }
    rcases h.unasked hnil with hstart | hfailed | ⟨before, earlier, hbefore, hunasked⟩
    · -- The session is still as configured: this datagram is the unasked answer.
      refine ⟨ops, datagram, prefix_rfl, ?_, ?_⟩
      · rw [ht, hstart]
      · rw [hstart, hid] at hresolved
        rw [hstart] at heligible
        exact ⟨heligible, hresolved⟩
    · simp [hpending] at hfailed
    · exact ⟨before, earlier, hbefore.trans (prefix_append _ _), hunasked⟩

end

section

variable (serverIp : Ipv4Address) (serverPort : UInt16) (hostname : List Byte)

theorem configuredSession_inv (ops : List DnsOp) :
    DnsInv (configuredSession serverIp serverPort hostname) ops
      (DnsTrace.run (configuredSession serverIp serverPort hostname) ops) := by
  induction ops using reverseRecOn with
  | nil =>
    exact
      { serverIp := rfl
        serverPort := rfl
        asked := fun h => absurd rfl h
        unasked := fun _ => .inl rfl
        silent := fun _ => rfl
        answered := nofun }
  | append_singleton ops op ih =>
    rw [DnsTrace.run_snoc]
    cases op with
    | beginQuery query now => exact ih.beginQuery query now
    | poll now => exact ih.poll now
    | datagram datagram => exact ih.datagram rfl datagram

theorem handleDnsResponse_unasked {datagram : DnsDatagram}
    (h : (configuredSession serverIp serverPort hostname).UnaskedAnswer datagram) :
    (handleDnsResponse (configuredSession serverIp serverPort hostname) datagram).1.state =
      .resolved := by
  obtain ⟨heligible, houtcome⟩ := h
  have hpending : (configuredSession serverIp serverPort hostname).state = .pending := rfl
  rw [handleDnsResponse, if_neg (not_not.2 hpending), if_neg (not_not.2 heligible)]
  dsimp only
  rw [show (configuredSession serverIp serverPort hostname).transactionId = 0 from rfl, houtcome]

/-- Along a run of the operations of a session in any order, the session is never resolved by
    anything but an answer to its query, exactly if no datagram that would be an answer under
    identifier 0 comes in from the server while the session is still as configured. -/
theorem dns_answers_query_iff (ops : List DnsOp) : (∀ before, before <+: ops →
      (DnsTrace.run (configuredSession serverIp serverPort hostname) before).session.state =
        .resolved →
      (DnsTrace.run (configuredSession serverIp serverPort hostname) before).AnswersQuery
        (configuredSession serverIp serverPort hostname)) ↔
    ∀ before datagram, before ++ [DnsOp.datagram datagram] <+: ops →
      (DnsTrace.run (configuredSession serverIp serverPort hostname) before).session =
        configuredSession serverIp serverPort hostname →
      ¬(configuredSession serverIp serverPort hostname).UnaskedAnswer datagram := by
  constructor
  · intro h before datagram hleads hstart hunasked
    have hinv := configuredSession_inv serverIp serverPort hostname before
    have hnil : (DnsTrace.run (configuredSession serverIp serverPort hostname) before).transmitted =
        [] := by
      by_contra hasked
      have hcount := (hinv.asked hasked).1
      rw [hstart] at hcount
      exact absurd hcount (lt_irrefl 0)
    have hstep := DnsTrace.run_snoc (configuredSession serverIp serverPort hostname) before
      (.datagram datagram)
    obtain ⟨query, _, hquery, -⟩ := h _ hleads (by
      rw [hstep]
      show (handleDnsResponse _ datagram).1.state = .resolved
      rw [hstart]
      exact handleDnsResponse_unasked serverIp serverPort hostname hunasked)
    rw [hstep] at hquery
    change (DnsTrace.run _ before).transmitted.getLast? = some query at hquery
    simp [hnil] at hquery
  · intro h before hleads hresolved
    have hinv := configuredSession_inv serverIp serverPort hostname before
    obtain ⟨datagram, haccepted, hid, hip, hport⟩ := hinv.answered hresolved
    by_cases hnil : (DnsTrace.run (configuredSession serverIp serverPort hostname)
        before).transmitted = []
    · rcases hinv.unasked hnil with hstart | hfailed | ⟨earlier, early, hearlier, hstart, hunasked⟩
      · rw [hstart] at hresolved
        exact nomatch hresolved
      · simp [hfailed] at hresolved
      · exact absurd hunasked (h earlier early (hearlier.trans hleads) hstart)
    · obtain ⟨-, hquery, hqueryId⟩ := hinv.asked hnil
      exact ⟨_, datagram, hquery, haccepted, hid.trans hqueryId.symm, hip.trans hinv.serverIp,
        hport.trans hinv.serverPort⟩

end

/-- An answer for the name `a` under identifier 0. -/
def exampleUnaskedAnswer : DnsDatagram :=
  { sourceIp := ⟨Vector.replicate 4 9⟩
    sourcePort := 53
    destinationPort := kDnsClientSourcePort
    payload :=
      [0, 0, 0x80, 0, 0, 1, 0, 1, 0, 0, 0, 0, 1, 0x61, 0, 0, 1, 0, 1,
        0xc0, 0x0c, 0, 1, 0, 1, 0, 0, 0, 60, 0, 4, 10, 10, 10, 10] }

/-- The session is resolved before it has sent anything. -/
theorem resolved_without_query :
    let t := DnsTrace.run (configuredSession exampleUnaskedAnswer.sourceIp 53 (ascii "a"))
      [.datagram exampleUnaskedAnswer]
    t.session.state = .resolved ∧ t.session.transmitCount = 0 ∧ t.transmitted = [] ∧
      t.session.resolvedAddress = some ⟨Vector.replicate 4 10⟩ ∧
      ¬t.AnswersQuery (configuredSession exampleUnaskedAnswer.sourceIp 53 (ascii "a")) := by
  refine ⟨by decide +kernel, by decide +kernel, rfl, by decide +kernel, ?_⟩
  rintro ⟨query, _, hquery, -⟩
  exact nomatch hquery

end Wirestack
