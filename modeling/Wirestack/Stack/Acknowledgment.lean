import Wirestack.Stack.HandleTcp
import Wirestack.Tcp.Outflow

set_option autoImplicit false

/-! # Who acknowledges received data

The table answers a segment that releases payload with a pure ACK only when there is SACK
information to report; it leaves the acknowledgment to whatever its caller sends next. The caller is
`handleTcp`, and it sends something only if queued data could be scheduled or the HTTP layer has
something to say. This module follows the acknowledgment number through both layers: what the HTTP
layer sends carries the one the table has moved to, so an advance of `rcvNxt` goes unacknowledged
exactly when nobody sends anything. Whether somebody does is told from the bytes that arrive, the HTTP
sessions, the queue and the windows as they are before the call. -/

namespace Wirestack

open List TcpConnectionTable Connection

variable {c d : Connection} {t : TcpConnectionTable} {key : TcpConnectionKey} {now : TimePoint}
  {payload : List Byte} {response : HttpResponse} {s : Stack}

/-! ## What the HTTP layer sends -/

/-- The calls leave the receive side of the connection of `key` as it is, and the segments they hand
    out carry its acknowledgment number and window. -/
structure TcpConnectionTable.Answers (key : TcpConnectionKey) (t t' : TcpConnectionTable)
    (sent : List TcpSegment) : Prop where
  receive : ∀ c, t.find? key = some c →
    ∃ c', t'.find? key = some c' ∧ c'.view.receive = c.view.receive
  stamped : ∀ c, t.find? key = some c → ∀ segment ∈ sent, c.Stamps segment

namespace TcpConnectionTable.Answers

variable {key : TcpConnectionKey} {t t₁ t₂ : TcpConnectionTable} {sent sent' : List TcpSegment}

theorem refl (key : TcpConnectionKey) (t : TcpConnectionTable) : Answers key t t [] :=
  ⟨fun c hc => ⟨c, hc, rfl⟩, by simp⟩

theorem append (h₁ : Answers key t t₁ sent) (h₂ : Answers key t₁ t₂ sent') :
    Answers key t t₂ (sent ++ sent') := by
  refine ⟨fun c hc => ?_, fun c hc segment hmem => ?_⟩
  · obtain ⟨c₁, hc₁, hview₁⟩ := h₁.receive c hc
    obtain ⟨c₂, hc₂, hview₂⟩ := h₂.receive c₁ hc₁
    exact ⟨c₂, hc₂, hview₂.trans hview₁⟩
  · obtain ⟨c₁, hc₁, hview₁⟩ := h₁.receive c hc
    rcases mem_append.1 hmem with hmem | hmem
    · exact h₁.stamped c hc segment hmem
    · exact (h₂.stamped c₁ hc₁ segment hmem).congr hview₁.symm

theorem of_put {c' : Connection} (hc : t.find? key = some c)
    (hview : c'.view.receive = c.view.receive) (hsent : ∀ segment ∈ sent, c.Stamps segment) :
    Answers key t (t.put key (some c')) sent := by
  refine ⟨fun c₀ hc₀ => ⟨c', ?_, ?_⟩, fun c₀ hc₀ => ?_⟩
  · rw [find?_put, if_pos rfl]
  · rw [hc, Option.some.injEq] at hc₀
    rw [← hc₀, hview]
  · rw [hc, Option.some.injEq] at hc₀
    rwa [← hc₀]

end TcpConnectionTable.Answers

open TcpConnectionTable (Answers)

theorem enqueueData_answers (hc : t.find? key = some c) (payload : List Byte) (now : TimePoint) :
    Answers key t (t.put key (some (enqueueData key c payload now).1))
      (enqueueData key c payload now).2.segments := by
  rcases enqueueData_cases key c payload now with ⟨error, heq⟩ | ⟨-, -, -, heq⟩
  · rw [heq]
    exact .of_put hc rfl (by simp)
  · rw [heq]
    refine .of_put hc ?_ fun segment hmem => ?_
    · dsimp only
      rw [scheduleQueuedData_shape]
      rfl
    · dsimp only at hmem
      exact (scheduleQueuedData_scheduled hmem).stamped.congr rfl

theorem closeConnection_answers (hc : t.find? key = some c) (now : TimePoint) :
    Answers key t (t.put key (some (closeConnection key c now).1))
      (closeConnection key c now).2.fin.toList := by
  unfold closeConnection
  split_ifs with hsendable
  · exact .of_put hc rfl (by simp)
  · obtain ⟨_, hclosed⟩ := closed_shape key c now
    refine .of_put hc ?_ fun segment hmem => ?_
    · dsimp only
      rw [hclosed]
      rfl
    · have hhead := mem_of_mem_head? (Option.mem_toList.1 hmem)
      rcases mem_maybeSequenceFin hhead with hnil | rfl
      · cases hnil
      · exact ⟨rfl, rfl⟩

theorem HttpCalls.answers {t' : TcpConnectionTable} {sent : List TcpSegment}
    (h : HttpCalls key now t t' sent) : Answers key t t' sent := by
  induction h with
  | none t => exact .refl key t
  | send t payload =>
    unfold makeOutgoingData
    split_ifs
    · exact .refl key t
    · exact .refl key t
    · split
      · exact .refl key t
      · next c hc => exact enqueueData_answers hc payload now
  | close t =>
    unfold beginClose
    split
    · exact .refl key t
    · next c hc => exact closeConnection_answers hc now
  | append _ _ _ _ _ _ _ ih₁ ih₂ => exact ih₁.append ih₂

/-! ## When the HTTP layer sends something -/

section Http

variable {s : Stack} {t : TcpConnectionTable} {d : Connection} {key : TcpConnectionKey}
  {result : TcpReceiveResult}

/-- The response that the server owes once these bytes are there: none on the connection that the
    runtime opened itself, none to a client that has been answered, and otherwise what the parser's
    verdict on the buffered request calls for. -/
def Stack.owedResponse (s : Stack) (key : TcpConnectionKey) (bytes : List Byte) (closed : Bool) :
    Option (List Byte) :=
  let session := (s.httpSessions[key]?).getD {}
  if s.activeOpenKey = some key ∨ session.responded = true then none
  else (chooseResponse (appendHttpBytes session bytes).buffer closed).map serializeHttpResponse

/-- The client has its verdict once these bytes are there: the response parses or cannot any more. -/
def HttpClientSession.decides (session : HttpClientSession) (bytes : List Byte) (closed : Bool) :
    Bool :=
  let next := if bytes.isEmpty then session else appendHttpClientBytes session bytes
  session.responseComplete || session.failed || next.responseOverflowed ||
    (parseHttpResponse next.responseBuffer (session.peerFinSeen || closed)).status != .incomplete

/-- The client requests the close once these bytes are there. -/
def Stack.clientCloses (s : Stack) (key : TcpConnectionKey) (bytes : List Byte) (closed : Bool) :
    Bool :=
  (s.httpClientSessions[key]?).any fun session =>
    session.decides bytes closed && !session.closeInitiated

theorem appendHttpBytes_nil (session : HttpConnectionState) : appendHttpBytes session [] = session := by
  unfold appendHttpBytes
  split_ifs
  · rfl
  · simp

theorem makeOutgoingData_of_not_takes (hd : t.find? key = some d) (h : d.takes payload = false)
    (now : TimePoint) : (t.makeOutgoingData key payload now).1.find? key = some d ∧
      (t.makeOutgoingData key payload now).2.error.isSome = true := by
  unfold makeOutgoingData
  split_ifs with hempty hlarge
  · exact ⟨hd, rfl⟩
  · exact ⟨hd, rfl⟩
  · rw [hd]
    rcases enqueueData_cases key d payload now with ⟨error, heq⟩ | ⟨hsendable, hopen, hroom, -⟩
    · dsimp only
      rw [heq, find?_put, if_pos rfl]
      exact ⟨rfl, rfl⟩
    · simp [takes, hempty, hsendable, hopen, hroom, Nat.le_of_not_lt hlarge] at h

theorem makeOutgoingData_of_takes (hd : t.find? key = some d) (h : d.takes payload = true)
    (now : TimePoint) : t.makeOutgoingData key payload now =
      (t.put key (some (scheduleQueuedData key (d.queue payload false) now).1),
        { segments := (scheduleQueuedData key (d.queue payload false) now).2
          bytesAccepted := payload.length }) := by
  simp only [takes, Bool.and_eq_true, Bool.not_eq_true', decide_eq_true_eq] at h
  obtain ⟨⟨⟨⟨hne, hsize⟩, hsendable⟩, hopen⟩, hroom⟩ := h
  have hqueue : d.queue payload false = { d with unsent := d.unsent ++ payload } := by simp [queue]
  rw [makeOutgoingData, if_neg (by simp [hne]), if_neg (Nat.not_lt.2 hsize), hd, hqueue]
  dsimp only
  rw [enqueueData, if_neg (by simp [hsendable, hopen])]
  dsimp only
  rw [if_neg]
  split_ifs with hfull <;> omega

theorem sendResponse_of_not_takes (hd : t.find? key = some d)
    (h : d.takes (serializeHttpResponse response) = false) (now : TimePoint) :
    (sendResponse t key response now).2 = [] ∧
      (sendResponse t key response now).1.find? key = some d := by
  obtain ⟨hfound, herror⟩ := makeOutgoingData_of_not_takes hd h now
  unfold sendResponse
  generalize t.makeOutgoingData key (serializeHttpResponse response) now = sent at hfound herror ⊢
  dsimp only
  rw [if_pos herror]
  exact ⟨rfl, hfound⟩

theorem sendResponse_of_takes (hd : t.find? key = some d)
    (h : d.takes (serializeHttpResponse response) = true) (now : TimePoint) :
    let sent := scheduleQueuedData key (d.queue (serializeHttpResponse response) false) now
    (sendResponse t key response now).2 = sent.2 ++ (closeConnection key sent.1 now).2.fin.toList ∧
      (sendResponse t key response now).1.find? key = some (closeConnection key sent.1 now).1 := by
  rw [sendResponse, makeOutgoingData_of_takes hd h]
  generalize scheduleQueuedData key (d.queue (serializeHttpResponse response) false) now = sent
  dsimp only [Option.isSome_none]
  rw [if_neg Bool.false_ne_true, beginClose, find?_put, if_pos rfl]
  rw [find?_put, if_pos rfl]
  exact ⟨rfl, rfl⟩

theorem Stack.serveHttp_sessions (s : Stack) (key : TcpConnectionKey) (result : TcpReceiveResult)
    (now : TimePoint) :
    (s.serveHttp key result now).1.httpClientSessions = s.httpClientSessions := by
  unfold serveHttp
  dsimp only
  split
  · split
    · rfl
    · split <;> rfl
  · rfl

theorem Stack.serveHttp_cases (hd : s.connections.find? key = some d)
    (hdata : (!result.acceptedPayload.isEmpty || result.peerClosed) = true) (now : TimePoint)
    {owed : Option (List Byte)}
    (howed : s.owedResponse key result.acceptedPayload result.peerClosed = owed) :
    (owed.filter d.takes = none → (s.serveHttp key result now).2 = [] ∧
      (s.serveHttp key result now).1.connections.find? key = some d) ∧
    ∀ payload, owed.filter d.takes = some payload →
      let sent := scheduleQueuedData key (d.queue payload false) now
      (s.serveHttp key result now).2 = sent.2 ++ (closeConnection key sent.1 now).2.fin.toList ∧
        (s.serveHttp key result now).1.connections.find? key =
          some (closeConnection key sent.1 now).1 := by
  unfold serveHttp
  unfold owedResponse at howed
  rw [hdata, Bool.true_and]
  dsimp only at howed ⊢
  by_cases hown : s.activeOpenKey = some key
  · rw [if_pos (.inl hown)] at howed
    rw [if_neg (by simp [hown]), ← howed]
    exact ⟨fun _ => ⟨rfl, hd⟩, nofun⟩
  by_cases hresponded : ((s.httpSessions[key]?).getD {}).responded = true
  · rw [if_pos (.inr hresponded)] at howed
    rw [if_pos (by simpa using hown), if_pos hresponded, ← howed]
    exact ⟨fun _ => ⟨rfl, hd⟩, nofun⟩
  have hsession : (if result.acceptedPayload.isEmpty then (s.httpSessions[key]?).getD {}
      else appendHttpBytes ((s.httpSessions[key]?).getD {}) result.acceptedPayload) =
      appendHttpBytes ((s.httpSessions[key]?).getD {}) result.acceptedPayload := by
    split_ifs with hempty
    · rw [List.isEmpty_iff.1 hempty, appendHttpBytes_nil]
    · rfl
  rw [if_neg (not_or.2 ⟨hown, hresponded⟩)] at howed
  rw [if_pos (by simpa using hown), if_neg hresponded, hsession]
  generalize chooseResponse (appendHttpBytes ((s.httpSessions[key]?).getD {})
    result.acceptedPayload).buffer result.peerClosed = chosen at howed ⊢
  cases chosen with
  | none =>
    rw [← howed]
    exact ⟨fun _ => ⟨rfl, hd⟩, nofun⟩
  | some response =>
    obtain rfl : some (serializeHttpResponse response) = owed := howed
    dsimp only
    constructor
    · intro hnone
      have hsent := sendResponse_of_not_takes hd (by simpa using hnone) now
      generalize sendResponse s.connections key response now = sent at hsent ⊢
      exact hsent
    · intro payload hsome
      obtain ⟨hpayload, htakes⟩ := Option.filter_eq_some_iff.1 hsome
      obtain rfl := Option.some.inj hpayload
      have hsent := sendResponse_of_takes hd htakes now
      generalize sendResponse s.connections key response now = sent at hsent ⊢
      exact hsent

theorem receiveResponse_decides (session : HttpClientSession) (bytes : List Byte) (closed : Bool) :
    ((receiveResponse session bytes closed).responseComplete ||
        (receiveResponse session bytes closed).failed) = session.decides bytes closed ∧
      (receiveResponse session bytes closed).decides [] false = session.decides bytes closed ∧
      (receiveResponse session bytes closed).closeInitiated = session.closeInitiated := by
  unfold receiveResponse HttpClientSession.decides
  by_cases hcomplete : session.responseComplete = true
  · rw [if_pos hcomplete, hcomplete]
    split_ifs <;> simp [hcomplete]
  rw [if_neg hcomplete]
  by_cases hfailed : session.failed = true
  · rw [if_pos hfailed, hfailed]
    simp
  rw [if_neg hfailed]
  have hnext : ∀ next, next = (if bytes.isEmpty then session else appendHttpClientBytes session bytes) →
      next.responseComplete = false ∧ next.failed = false ∧
        next.peerFinSeen = session.peerFinSeen ∧ next.closeInitiated = session.closeInitiated := by
    rintro _ rfl
    unfold appendHttpClientBytes
    dsimp only
    split_ifs <;> simp [hcomplete, hfailed]
  dsimp only
  generalize (if bytes.isEmpty then session else appendHttpClientBytes session bytes) = next at hnext
  obtain ⟨hcomplete', hfailed', hfin, hinitiated⟩ := hnext next rfl
  have hclosed : (if closed then { next with peerFinSeen := true } else next) =
      { next with peerFinSeen := session.peerFinSeen || closed } := by
    rw [← hfin]
    cases closed <;> simp
  rw [hclosed]
  by_cases hoverflowed : next.responseOverflowed = true
  · rw [if_pos hoverflowed]
    simp [hoverflowed, hinitiated]
  rw [if_neg hoverflowed]
  cases hstatus : (parseHttpResponse next.responseBuffer (session.peerFinSeen || closed)).status <;>
    simp [*]

theorem Stack.handleHttpClient_sends_iff (hd : s.connections.find? key = some d)
    (hestablished : result.connectionEstablished = false) (now : TimePoint) :
    (s.handleHttpClient key result now).2 ≠ [] ↔
      s.clientCloses key result.acceptedPayload result.peerClosed = true ∧
        (closeConnection key d now).2.fin ≠ none := by
  unfold handleHttpClient clientCloses
  cases s.httpClientSessions[key]? with
  | none => simp
  | some session =>
    have hrequest : enqueueRequest s.connections key session result now =
        (s.connections, session, []) := by
      rw [enqueueRequest, hestablished, Bool.false_and, if_neg Bool.false_ne_true]
    obtain ⟨hdecides, -, hinitiated⟩ :=
      receiveResponse_decides session result.acceptedPayload result.peerClosed
    dsimp only
    rw [hrequest, nil_append, closeWhenDone, hdecides, hinitiated, Option.any_some]
    by_cases hcloses : (session.decides result.acceptedPayload result.peerClosed &&
        !session.closeInitiated) = true
    · rw [if_pos hcloses, and_iff_right hcloses]
      unfold beginClose
      rw [hd]
      simp
    · rw [if_neg hcloses]
      simp [hcloses]

theorem Stack.handleHttp_sends_iff (hd : s.connections.find? key = some d)
    (hfin : d.isSendable = true → d.localFinSeq = none) (hsilent : d.sends = false)
    (hdata : (!result.acceptedPayload.isEmpty || result.peerClosed) = true)
    (hestablished : result.connectionEstablished = false) (now : TimePoint) :
    (s.handleHttp key result now).2 ≠ [] ↔
      (d.answered (s.owedResponse key result.acceptedPayload result.peerClosed)
        (s.clientCloses key result.acceptedPayload result.peerClosed)).sends = true := by
  have hserve := serveHttp_cases hd hdata now rfl
  have hclient := fun {d'} (hd' : (s.serveHttp key result now).1.connections.find? key = some d') =>
    handleHttpClient_sends_iff hd' hestablished now
  have hcloses : (s.serveHttp key result now).1.clientCloses key result.acceptedPayload
      result.peerClosed = s.clientCloses key result.acceptedPayload result.peerClosed := by
    rw [clientCloses, serveHttp_sessions, clientCloses]
  simp only [hcloses] at hclient
  rw [handleHttp]
  dsimp only
  generalize s.serveHttp key result now = served at hserve hclient ⊢
  generalize s.clientCloses key result.acceptedPayload result.peerClosed = close at hclient ⊢
  rw [answered]
  cases hqueued : (s.owedResponse key result.acceptedPayload result.peerClosed).filter d.takes with
  | none =>
    obtain ⟨hnil, hd'⟩ := hserve.1 hqueued
    rw [hnil, nil_append, hclient hd', closeConnection_fin_iff]
    exact (queue_nil_sends_iff hsilent hfin close).symm
  | some payload =>
    obtain ⟨hsent, hd'⟩ := hserve.2 payload hqueued
    have htakes := (Option.filter_eq_some_iff.1 hqueued).2
    simp only [takes, Bool.and_eq_true, Bool.not_eq_true', isEmpty_eq_false_iff] at htakes
    obtain ⟨⟨⟨⟨hne, -⟩, hsendable⟩, -⟩, -⟩ := htakes
    have hfin' : (d.queue payload false).localFinSeq = none := hfin hsendable
    have hsendable' : (d.queue payload false).isSendable = true := hsendable
    have hunsent : (d.queue payload false).unsent ≠ [] := by simp [queue, hne]
    rw [Option.getD_some, queue_sends_congr hne]
    by_cases hsends : (d.queue payload false).sends = true
    · have hsome := scheduleQueuedData_sends key now hfin' hsends
      rw [hsent]
      exact iff_of_true (by simp [hsome]) hsends
    · rw [scheduleQueuedData_silent key now hsendable' (by simpa using hsends)] at hsent hd'
      have hwaits : ∀ e : Connection, e.unsent = (d.queue payload false).unsent →
          (closeConnection key e now).2.fin = none := by
        intro e he
        by_contra hfin
        exact hunsent (he.symm.trans ((closeConnection_fin_iff key now e).1 hfin).2.2.1)
      have hleft : ((d.queue payload false).updatePersistState now).unsent =
          (d.queue payload false).unsent := by rw [updatePersistState_shape]
      have hsilent' := mt (hclient hd').1 fun h =>
        h.2 (hwaits _ ((closeConnection_unsent key now _).trans hleft))
      rw [not_ne_iff] at hsilent'
      rw [hsent, hwaits _ hleft, hsilent']
      exact iff_of_false (by simp) hsends

end Http

/-! ## Client sessions between calls -/

/-- Nothing is left to do for the client until something arrives. -/
def Stack.ClientsSettled (s : Stack) : Prop :=
  ∀ key, s.clientCloses key [] false = false

section Settled

variable {s s' : Stack} {key : TcpConnectionKey}

theorem closeWhenDone_settled (t : TcpConnectionTable) (session : HttpClientSession)
    (bytes : List Byte) (closed : Bool) (now : TimePoint) :
    ((closeWhenDone t key (receiveResponse session bytes closed) now).2.1.decides [] false &&
      !(closeWhenDone t key (receiveResponse session bytes closed) now).2.1.closeInitiated) = false := by
  obtain ⟨hdecides, hstays, -⟩ := receiveResponse_decides session bytes closed
  unfold closeWhenDone
  split_ifs with hdone
  · simp
  · rwa [hdecides, ← hstays, Bool.not_eq_true] at hdone

theorem Stack.handleHttpClient_settled (h : s.ClientsSettled) (result : TcpReceiveResult)
    (now : TimePoint) : (s.handleHttpClient key result now).1.ClientsSettled := by
  unfold handleHttpClient
  split
  · exact h
  · intro other
    rw [clientCloses, Std.ExtTreeMap.getElem?_insert]
    split
    · exact closeWhenDone_settled ..
    · exact h other

theorem Stack.ClientsSettled.congr (h : s.ClientsSettled)
    (hsame : s'.httpClientSessions = s.httpClientSessions) : s'.ClientsSettled := by
  intro key
  rw [clientCloses, hsame]
  exact h key

theorem Stack.eraseSessions_settled (keys : List TcpConnectionKey) (h : s.ClientsSettled) :
    (keys.foldl eraseSessions s).ClientsSettled := by
  induction keys generalizing s with
  | nil => exact h
  | cons key keys ih =>
    refine ih fun other => ?_
    rw [clientCloses, eraseSessions, Std.ExtTreeMap.getElem?_erase]
    split
    · rfl
    · exact h other

theorem Stack.handleHttp_settled (h : s.ClientsSettled) (key : TcpConnectionKey)
    (result : TcpReceiveResult) (now : TimePoint) :
    (s.handleHttp key result now).1.ClientsSettled := by
  have hserved := h.congr (s.serveHttp_sessions key result now)
  unfold handleHttp
  generalize s.serveHttp key result now = served at hserved ⊢
  exact handleHttpClient_settled hserved result now

theorem Stack.dial_settled (h : s.ClientsSettled) (request : Option (List Byte × List Byte))
    (now : TimePoint) : (s.dial request now).1.ClientsSettled := by
  unfold dial
  split
  · exact h
  · next key _ =>
    split
    · exact h
    · dsimp only
      split
      · intro other
        rw [clientCloses, Std.ExtTreeMap.getElem?_insertIfNew]
        split
        · rfl
        · exact h other
      · exact h.congr rfl
      · exact h.congr rfl

theorem StackRun.settled (h : StackRun s) : s.ClientsSettled := by
  induction h with
  | initial localIp isnGenerator activeOpenKey =>
    intro key
    rw [Stack.clientCloses, Stack.initial, Std.ExtTreeMap.getElem?_empty]
    rfl
  | step s s' _ hstep ih =>
    cases hstep with
    | received memory source parsed now =>
      unfold Stack.handleTcp
      split
      · exact ih
      · next segment =>
        have hhandled : ∀ t : TcpConnectionTable, ({ s with connections := t } : Stack).ClientsSettled :=
          fun _ => ih.congr rfl
        dsimp only
        split
        · exact Stack.eraseSessions_settled [_] (Stack.handleHttp_settled (hhandled _) _ _ now)
        · exact Stack.handleHttp_settled (hhandled _) _ _ now
    | resolved | unreachable => exact ih.congr rfl
    | dialed request now => exact Stack.dial_settled ih request now
    | polled now =>
      have hpolled : ∀ t : TcpConnectionTable, ({ s with connections := t } : Stack).ClientsSettled :=
        fun _ => ih.congr rfl
      exact Stack.eraseSessions_settled _ (Stack.eraseSessions_settled _ (hpolled _))

end Settled

/-! ## What the table acknowledges -/

section Table

variable {S : List Byte} {u : ℕ} {memory : ℕ → Byte} {key : TcpConnectionKey} {c : Connection}
  {segment : TcpSegment} {options : TcpParsedOptions} {now : TimePoint}
  {outcome : Connection × TcpReceiveResult} (h : Synced S u c) (hwait : c.state ≠ .timeWait)
  (hok : BufferOk c.rcvNxt c.outOfOrder) (hproc : Processes c segment options)
  (hout : ProcessedOutcome memory key c segment options (processAck key c segment options now).2
    now outcome)
  (hkept : outcome.1.pendingRemoval = false) (hmoved : outcome.1.rcvNxt ≠ c.rcvNxt)

include h hwait hok hproc hout hmoved

theorem processed_result : outcome.2.acceptedPayload = c.received memory segment ∧
      outcome.2.peerClosed = c.closes memory segment ∧ c.Moves memory segment ∧
      (!outcome.2.acceptedPayload.isEmpty || outcome.2.peerClosed) = true := by
  have harrival := (h.arrives hwait key hproc now).arrival hok memory now
  have hrcv := ((bufferOk_congr hout.receive_eq).1.trans harrival.rcvNxt).symm
  have hnew : c.received memory segment ≠ [] ∨ c.closes memory segment = true := by
    by_contra hnone
    rw [not_or, not_ne_iff, Bool.not_eq_true] at hnone
    rw [hnone.1, hnone.2] at hrcv
    exact hmoved (hrcv.symm.trans (SerialNumber.pos_zero _))
  rw [hout.accepted, hout.peerClosed, harrival.accepted, harrival.peerClosed]
  refine ⟨rfl, rfl, hnew.imp_right .inl, ?_⟩
  simpa [isEmpty_eq_false_iff] using hnew

theorem processed_hasSackToReport : outcome.1.hasSackToReport = true ↔
    c.sackPermitted = true ∧ c.leavesGap memory segment = true := by
  have harrival := (h.arrives hwait key hproc now).arrival hok memory now
  have haccepts : c.acceptsPart segment = true := by
    by_contra hnot
    refine hmoved ((bufferOk_congr hout.receive_eq).1.trans ?_)
    exact (bufferOk_congr (harrival.ignored (by simpa using hnot))).1
  have hpermitted : outcome.1.sackPermitted = c.sackPermitted := by
    rw [hout.connection, scheduleIfSendable_shape, receivePart_shape, afterAck, advanceClose_shape, processAck_shape]
    rfl
  rw [hasSackToReport, Bool.and_eq_true, hpermitted, ← harrival.gap haccepts,
    (bufferOk_congr hout.receive_eq).2.1]
  simp

include hkept

theorem processed_acknowledges_iff :
    (∃ sent ∈ outcome.2.handedBack, sent.acknowledgmentNumber = outcome.1.rcvNxt) ↔
      c.received memory segment = [] ∨
      c.sackPermitted = true ∧ c.leavesGap memory segment = true ∨
      (c.acked segment).sends = true := by
  obtain ⟨haccepted, -, hmoves, -⟩ := processed_result h hwait hok hproc hout hmoved
  rw [← haccepted, ← processed_hasSackToReport h hwait hok hproc hout hmoved,
    ← scheduled_ne_nil_iff h hproc hout hkept hmoves.carries]
  have hreplies : outcome.2.reply.isSome = (outcome.2.acceptedPayload.isEmpty &&
      outcome.2.scheduled.isEmpty || outcome.1.hasSackToReport) := by
    refine hout.replies ?_
    by_contra hnot
    refine hmoved ((bufferOk_congr hout.receive_eq).1.trans ?_)
    rw [receivePart, if_neg hnot]
    exact (bufferOk_congr (afterAck_receive key c segment options now)).1
  constructor
  · rintro ⟨sent, hmem, hack⟩
    simp only [TcpReceiveResult.handedBack, mem_append, Option.mem_toList] at hmem
    rcases hmem with (hmem | hmem) | hmem
    · rw [hmem, Option.isSome_some] at hreplies
      simp only [Bool.true_eq, Bool.or_eq_true, Bool.and_eq_true, List.isEmpty_iff] at hreplies
      exact hreplies.imp And.left .inl
    · -- A fast retransmission still carries the old number.
      rw [hout.fastRetransmit] at hmem
      exact absurd (hack.symm.trans (processAck_stamped hmem).acknowledgmentNumber) hmoved
    · exact .inr (.inr (List.ne_nil_of_mem hmem))
  · intro hcond
    by_cases hscheduled : outcome.2.scheduled = []
    · have hsome : outcome.2.reply.isSome = true := by
        rw [hreplies, hscheduled]
        simpa [hscheduled] using hcond
      obtain ⟨reply, hreply⟩ := Option.isSome_iff_exists.1 hsome
      refine ⟨reply, ?_, by rw [hout.reply reply hreply]; rfl⟩
      simp [TcpReceiveResult.handedBack, hreply]
    · obtain ⟨sent, hmem⟩ := exists_mem_of_ne_nil _ hscheduled
      have hstamped := (scheduleIfSendable_scheduled
        (hout.scheduled ▸ hmem)).stamped.congr hout.receive_eq
      exact ⟨sent, mem_append_right _ hmem, hstamped.acknowledgmentNumber⟩

end Table

/-! ## One received segment -/

theorem Stack.handleHttp_idle (h : s.ClientsSettled) (hd : s.connections.find? key = some d)
    (now : TimePoint) : (s.handleHttp key {} now).2 = [] := by
  have hserve : s.serveHttp key {} now = (s, []) := by rw [serveHttp, if_neg (by simp)]
  have hclient : (s.handleHttpClient key {} now).2 = [] := by
    by_contra hsends
    obtain ⟨hcloses, -⟩ := (handleHttpClient_sends_iff hd rfl now).1 hsends
    exact Bool.false_ne_true ((h key).symm.trans hcloses)
  rw [handleHttp, hserve]
  exact hclient

theorem Stack.handleTcp_sent {memory : ℕ → Byte} {source : Ipv4Address} {segment : TcpSegment}
    {handled : TcpConnectionTable × TcpReceiveResult}
    (h : s.connections.handle memory (s.keyOf source segment) segment now = handled) :
    (s.handleTcp memory source (some segment) now).2 = handled.2.handedBack ++
      ({ s with connections := handled.1 }.handleHttp (s.keyOf source segment) handled.2 now).2 := by
  unfold handleTcp TcpReceiveResult.handedBack
  dsimp only
  rw [h]

theorem Stack.acknowledged_iff (hd : s.connections.find? key = some d) (result : TcpReceiveResult)
    (now : TimePoint) : (∃ sent ∈ result.handedBack ++ (s.handleHttp key result now).2,
        sent.acknowledgmentNumber = d.rcvNxt) ↔
      (∃ sent ∈ result.handedBack, sent.acknowledgmentNumber = d.rcvNxt) ∨
        (s.handleHttp key result now).2 ≠ [] := by
  have hhttp := (s.handleHttp_calls key result now).answers.stamped d hd
  constructor
  · rintro ⟨sent, hmem, hack⟩
    rcases mem_append.1 hmem with hmem | hmem
    · exact .inl ⟨sent, hmem, hack⟩
    · exact .inr (List.ne_nil_of_mem hmem)
  · rintro (⟨sent, hmem, hack⟩ | hne)
    · exact ⟨sent, mem_append_left _ hmem, hack⟩
    · obtain ⟨sent, hmem⟩ := exists_mem_of_ne_nil _ hne
      exact ⟨sent, mem_append_right _ hmem, (hhttp sent hmem).acknowledgmentNumber⟩

/-- **When received data is acknowledged at once.** A segment that moves `rcvNxt` of a connection
    which stays in the table is acknowledged by the same call of `handleTcp` in these cases: it
    completes an active open; it brings a FIN and no byte; it leaves a hole that can be reported; or,
    with its acknowledgment applied and with the response and the close that its bytes call for, the
    connection has something to send that the windows let out. The acknowledgment that completes a
    passive open draws no answer. -/
theorem received_acknowledged_iff {s : Stack} (hs : StackRun s) {memory : ℕ → Byte}
    {source : Ipv4Address} {segment : TcpSegment} {now : TimePoint} {c c' : Connection}
    (hc : s.connections.find? (s.keyOf source segment) = some c)
    (hc' : (s.connections.handle memory (s.keyOf source segment) segment now).1.find?
      (s.keyOf source segment) = some c')
    (hadvance : c'.rcvNxt ≠ c.rcvNxt) :
    (∃ sent ∈ (s.handleTcp memory source (some segment) now).2,
        sent.acknowledgmentNumber = c'.rcvNxt) ↔
      c.state = .synSent ∨ c.state ≠ .synReceived ∧ (c.received memory segment = [] ∨
          c.sackPermitted = true ∧ c.leavesGap memory segment = true ∨
          ((c.acked segment).answered
            (s.owedResponse (s.keyOf source segment) (c.received memory segment)
              (c.closes memory segment))
            (s.clientCloses (s.keyOf source segment) (c.received memory segment)
              (c.closes memory segment))).sends = true) := by
  obtain ⟨traced, hreachable, htable⟩ := stackRun_reached hs
  have hc₀ : traced.table.find? (s.keyOf source segment) = some c := by rw [htable, hc]
  have hok := (Run.receiveInv hreachable hc₀).ok
  have hsynced := fun hsync => Run.synced hreachable hc₀ hsync
  have hhandled := handle_of_some hc memory segment now
  rw [hhandled, find?_put, if_pos rfl] at hc'
  rw [Stack.handleTcp_sent hhandled]
  have hkept := handleExisting_kept hc'
  generalize s.keyOf source segment = key at *
  generalize (handleExisting memory key c segment now).2 = result at hkept ⊢
  have hsettled := hs.settled
  have hd : (s.connections.put key (some c')).find? key = some c' := by rw [find?_put, if_pos rfl]
  rw [hc']
  generalize s.connections.put key (some c') = t at hd ⊢
  have howed : s.owedResponse = ({ s with connections := t } : Stack).owedResponse := rfl
  have hcloses : s.clientCloses = ({ s with connections := t } : Stack).clientCloses := rfl
  replace hsettled : ({ s with connections := t } : Stack).ClientsSettled := hsettled.congr rfl
  rw [howed, hcloses]
  replace hd : ({ s with connections := t } : Stack).connections.find? key = some c' := hd
  generalize ({ s with connections := t } : Stack) = s₁ at hd hsettled ⊢
  rw [Stack.acknowledged_iff hd]
  cases hkept with
  | ignored reply _ | resent _ _ _ _ | restarted _ _ => exact absurd rfl hadvance
  | established options hstate =>
    refine iff_of_true (.inl ⟨completingAck key _, ?_, rfl⟩) (.inl hstate)
    exact mem_append_left _ (mem_append_left _ (mem_singleton_self _))
  | completed hstate =>
    rw [Stack.handleHttp_idle hsettled hd, hstate]
    simp [TcpReceiveResult.handedBack]
  | processed options outcome hsync hwait hproc hout hremoval =>
    obtain ⟨u, hsynced⟩ := hsynced hsync
    obtain ⟨haccepted, hclosed, hmoves, hdata⟩ :=
      processed_result hsynced hwait hok hproc hout hadvance
    rw [processed_acknowledges_iff hsynced hwait hok hproc hout hremoval hadvance]
    have hopen : ¬ c.state = .synSent ∧ c.state ≠ .synReceived := by
      constructor <;> intro hstate <;> rw [hstate] at hsync <;> cases hsync
    rw [or_iff_right hopen.1, and_iff_right hopen.2, ← haccepted, ← hclosed]
    by_cases hsends : (c.acked segment).sends = true
    · exact iff_of_true (.inl (.inr (.inr hsends))) (.inr (.inr (answered_sends hsends _ _)))
    · obtain ⟨hlike, hfin⟩ := outcome_sendsLike hsynced hproc hout hremoval hmoves.carries
        (by simpa using hsends)
      have hsilent : outcome.1.sends = false := hlike.sends.trans (by simpa using hsends)
      rw [Stack.handleHttp_sends_iff hd hfin hsilent hdata hout.established,
        (hlike.answered _ _).sends, or_assoc, or_assoc, or_iff_right hsends]

/-- The address of a client, 10.0.0.1. -/
def exampleSource : Ipv4Address := exampleKey.remoteIp

def exampleRequestSyn : TcpSegment :=
  { sourcePort := 40000
    destinationPort := 8080
    sequenceNumber := 1000
    acknowledgmentNumber := 0
    flags := { syn := true }
    windowSize := 65535 }

/-- A segment of the request, which starts at 1001. -/
def exampleRequest (payload : List Byte) : TcpSegment :=
  { exampleRequestSyn with
    sequenceNumber := 1001
    acknowledgmentNumber := 5001
    flags := { ack := true }
    payload := payload }

/-- The server at 10.0.0.2 once the client's connection is established. -/
def exampleServer : Stack :=
  let s := Stack.initial exampleKey.localIp (fun _ => some 5000) none
  let s := (s.handleTcp noMemory exampleSource (some exampleRequestSyn) 0).1
  (s.handleTcp noMemory exampleSource (some (exampleRequest [])) 0).1

def exampleWhole : TcpSegment := exampleRequest (ascii "GET / HTTP/1.0\r\n\r\n")

/-- The first part of a request that continues in a later segment. -/
def exampleFirstPart : TcpSegment := exampleRequest (ascii "GET / HTTP/1.0\r\nX-Pad: aaaa")

theorem exampleServer_run : StackRun exampleServer :=
  .step _ _ (.step _ _ (.initial _ _ _) (.received ..)) (.received ..)

/-- A request that fits into one segment is acknowledged by the response. -/
theorem received_acknowledged_whole_request :
    ∃ sent ∈ (exampleServer.handleTcp noMemory exampleSource (some exampleWhole) 0).2,
      sent.acknowledgmentNumber = 1019 := by
  let key := exampleServer.keyOf exampleSource exampleWhole
  have hbefore : (exampleServer.connections.find? key).map (fun c => (c.state, c.rcvNxt,
      ((c.acked exampleWhole).answered
        (exampleServer.owedResponse key (c.received noMemory exampleWhole)
          (c.closes noMemory exampleWhole))
        (exampleServer.clientCloses key (c.received noMemory exampleWhole)
          (c.closes noMemory exampleWhole))).sends)) = some (.established, 1001, true) := by
    decide +kernel
  have hafter : ((exampleServer.connections.handle noMemory key exampleWhole 0).1.find? key).map
      rcvNxt = some 1019 := by
    decide +kernel
  obtain ⟨c, hc, hval⟩ := Option.map_eq_some_iff.1 hbefore
  simp only [Prod.mk.injEq] at hval
  obtain ⟨hstate, hrcv, hsends⟩ := hval
  obtain ⟨c', hc', hrcv'⟩ := Option.map_eq_some_iff.1 hafter
  have hadvance : c'.rcvNxt ≠ c.rcvNxt := by
    rw [hrcv, hrcv']
    decide
  have hacked := (received_acknowledged_iff exampleServer_run hc hc' hadvance).2
    (.inr ⟨by rw [hstate]; decide, .inr (.inr hsends)⟩)
  rwa [hrcv'] at hacked

/-- The first part of a longer request moves `rcvNxt` from 1001 to 1028, and nothing is sent. -/
theorem first_part_unacknowledged : StackRun exampleServer ∧
    ∃ c c', exampleServer.connections.find? (exampleServer.keyOf exampleSource exampleFirstPart) =
        some c ∧ c.state = .established ∧ c.rcvNxt = 1001 ∧
      (exampleServer.connections.handle noMemory
        (exampleServer.keyOf exampleSource exampleFirstPart) exampleFirstPart 0).1.find?
        (exampleServer.keyOf exampleSource exampleFirstPart) = some c' ∧ c'.rcvNxt = 1028 ∧
      (exampleServer.handleTcp noMemory exampleSource (some exampleFirstPart) 0).2 = [] := by
  let key := exampleServer.keyOf exampleSource exampleFirstPart
  have hbefore : (exampleServer.connections.find? key).map (fun c => (c.state, c.rcvNxt)) =
      some (.established, 1001) := by
    decide +kernel
  have hafter : ((exampleServer.connections.handle noMemory key exampleFirstPart 0).1.find? key).map
      rcvNxt = some 1028 := by
    decide +kernel
  obtain ⟨c, hc, hval⟩ := Option.map_eq_some_iff.1 hbefore
  obtain ⟨hstate, hrcv⟩ := Prod.mk.inj hval
  obtain ⟨c', hc', hrcv'⟩ := Option.map_eq_some_iff.1 hafter
  exact ⟨exampleServer_run, c, c', hc, hstate, hrcv, hc', hrcv', by decide +kernel⟩

end Wirestack
