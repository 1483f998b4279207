import Wirestack.Http.Incremental
import Wirestack.Stack.HandleTcp

set_option autoImplicit false

/-! # The verdict of the HTTP client

Once its request is enqueued, `handleHttpClient` sees nothing but the payload each segment delivers
and whether the peer has closed. TCP may cut the response anywhere, and the parser runs again after
every piece. The invariant says where a session stands after the bytes `received` (`Standing`): it
waits, it has the response, or it has given up on a stream that no continuation makes complete. So
the final verdict is the parser's verdict on the whole stream (`Delivers.verdict`). -/

namespace Wirestack

open List

/-- What a call of `handleHttpClient` reads of the receive result. -/
structure ClientEvent where
  acceptedPayload : List Byte
  peerClosed : Bool
  deriving DecidableEq, Repr

/-- What an event does to a session whose request is enqueued. -/
def clientStep (session : HttpClientSession) (event : ClientEvent) : HttpClientSession :=
  let session := receiveResponse session event.acceptedPayload event.peerClosed
  if (session.responseComplete || session.failed) && !session.closeInitiated then
    { session with closeInitiated := true }
  else session

theorem Stack.handleHttpClient_session {s : Stack} {key : TcpConnectionKey}
    {session : HttpClientSession} (hsession : s.httpClientSessions[key]? = some session)
    (henqueued : session.requestEnqueued = true) (result : TcpReceiveResult) (now : TimePoint) :
    (s.handleHttpClient key result now).1.httpClientSessions[key]? =
      some (clientStep session ⟨result.acceptedPayload, result.peerClosed⟩) := by
  have hrequest : enqueueRequest s.connections key session result now =
      (s.connections, session, []) := by
    rw [enqueueRequest, henqueued, Bool.not_true, Bool.and_false, if_neg Bool.false_ne_true]
  rw [Stack.handleHttpClient, hsession]
  dsimp only
  rw [hrequest, Std.ExtTreeMap.getElem?_insert_self]
  unfold closeWhenDone clientStep
  dsimp only
  split_ifs <;> rfl

/-- The session right after the request is enqueued. -/
def awaitingResponse (hostHeader target : List Byte) : HttpClientSession :=
  { hostHeader := hostHeader, target := target, requestEnqueued := true }

/-- The exchange succeeded. -/
def HttpClientSession.succeeded (session : HttpClientSession) : Bool :=
  session.responseComplete && !session.failed

/-- One way of delivering the bytes: in pieces, some of them empty, with the peer's FIN on or behind
    the last piece. -/
structure Delivers (bytes : List Byte) (events : List ClientEvent) : Prop where
  bytes_eq : events.flatMap (·.acceptedPayload) = bytes
  fin_last : events.Pairwise fun e later => e.peerClosed = true → later.acceptedPayload = []
  closed : ∃ e ∈ events, e.peerClosed = true

/-! ## Where a session stands -/

/-- Where a session stands after the bytes `received`, with the peer's FIN if `closed`. -/
inductive Standing (received : List Byte) (closed : Bool) (session : HttpClientSession) : Prop
  | waiting (hcomplete : session.responseComplete = false) (hfailed : session.failed = false)
      (hoverflowed : session.responseOverflowed = false)
      (hbuffer : session.responseBuffer = received) (hfin : session.peerFinSeen = closed)
      (hparse : (parseHttpResponse received closed).status = .incomplete)
  | done (hcomplete : session.responseComplete = true) (hfailed : session.failed = false)
      (hparse : (parseHttpResponse received true).status = .complete)
      (hcode : session.statusCode = ((parseHttpResponse received true).statusCode).getD 0)
      (hbody : session.body = (parseHttpResponse received true).body)
      (hopen : closed = false → (parseHttpResponse received false).status = .complete)
  | spoiled (hfailed : session.failed = true)
      (hparse : ∀ more, (closed = true → more = []) →
        (parseHttpResponse (received ++ more) true).status ≠ .complete)

section

variable {received : List Byte} {closed : Bool} {session : HttpClientSession}

theorem Standing.closing (h : Standing received closed session) :
    Standing received closed { session with closeInitiated := true } := by
  cases h with
  | waiting hcomplete hfailed hoverflowed hbuffer hfin hparse =>
    exact .waiting hcomplete hfailed hoverflowed hbuffer hfin hparse
  | done hcomplete hfailed hparse hcode hbody hopen =>
    exact .done hcomplete hfailed hparse hcode hbody hopen
  | spoiled hfailed hparse => exact .spoiled hfailed hparse

theorem not_complete_of_rejected (hne : (parseHttpResponse received closed).status ≠ .complete)
    (hwait : (parseHttpResponse received closed).status ≠ .incomplete) (more : List Byte)
    (hmore : closed = true → more = []) :
    (parseHttpResponse (received ++ more) true).status ≠ .complete := by
  intro hcomplete
  cases closed with
  | true =>
    rw [hmore rfl, append_nil] at hcomplete
    exact hne hcomplete
  | false =>
    by_cases hnil : more = []
    · rw [hnil, append_nil] at hcomplete
      exact (parseHttpResponse_open hcomplete).elim hne hwait
    · exact hwait (parseHttpResponse_earlier hnil hcomplete)

theorem Standing.judged (hcomplete : session.responseComplete = false)
    (hfailed : session.failed = false) (hoverflowed : session.responseOverflowed = false)
    (hbuffer : session.responseBuffer = received) (hfin : session.peerFinSeen = closed) :
    Standing received closed
      (match (parseHttpResponse session.responseBuffer session.peerFinSeen).status with
      | .incomplete => session
      | .complete =>
        { session with
          responseComplete := true
          statusCode := (parseHttpResponse session.responseBuffer
            session.peerFinSeen).statusCode.getD 0
          body := (parseHttpResponse session.responseBuffer session.peerFinSeen).body }
      | .malformed | .tooLarge | .unsupportedVersion | .unsupportedTransferEncoding =>
        { session with failed := true }
      | .truncated => { session with failed := true }) := by
  rw [hbuffer, hfin]
  cases hstatus : (parseHttpResponse received closed).status with
  | incomplete => exact .waiting hcomplete hfailed hoverflowed hbuffer hfin hstatus
  | complete =>
    have htrue : parseHttpResponse received true = parseHttpResponse received closed := by
      cases closed with
      | true => rfl
      | false => exact parseHttpResponse_closed hstatus
    refine .done rfl hfailed ?_ ?_ ?_ fun hopen => ?_
    · rw [htrue, hstatus]
    · rw [htrue]
    · rw [htrue]
    · rw [← hopen, hstatus]
  | malformed | tooLarge | unsupportedVersion | unsupportedTransferEncoding | truncated =>
    exact .spoiled rfl (not_complete_of_rejected (by rw [hstatus]; decide) (by rw [hstatus]; decide))

theorem appendPayload_cases (hoverflowed : session.responseOverflowed = false)
    (hbuffer : session.responseBuffer = received) (payload : List Byte) :
    (if payload.isEmpty then session else appendHttpClientBytes session payload) =
        { session with responseBuffer := received ++ payload } ∨
      kMaxHttpResponseHeaderBlockLength + kMaxHttpResponseBodyLength <
          (received ++ payload).length ∧
        (if payload.isEmpty then session else appendHttpClientBytes session payload) =
          { session with responseOverflowed := true } := by
  cases payload with
  | nil =>
    rw [if_pos isEmpty_nil, append_nil, ← hbuffer]
    exact .inl rfl
  | cons b payload =>
    rw [appendHttpClientBytes, if_neg (by simp), if_neg (by rw [hoverflowed]; exact Bool.false_ne_true), hbuffer,
      length_append]
    dsimp only
    split_ifs with hroom
    · exact .inr ⟨by omega, rfl⟩
    · exact .inl rfl

theorem Standing.receiveResponse (h : Standing received closed session) (event : ClientEvent)
    (hfin : closed = true → event.acceptedPayload = []) :
    Standing (received ++ event.acceptedPayload) (closed || event.peerClosed)
      (receiveResponse session event.acceptedPayload event.peerClosed) := by
  obtain ⟨payload, peerClosed⟩ := event
  dsimp only at hfin ⊢
  unfold Wirestack.receiveResponse
  cases h with
  | done hcomplete hfailed hparse hcode hbody hopen =>
    rw [if_pos hcomplete]
    by_cases hnil : payload = []
    · rw [hnil, if_pos isEmpty_nil, append_nil]
      exact .done hcomplete hfailed hparse hcode hbody fun hclosed =>
        hopen (Bool.or_eq_false_iff.1 hclosed).1
    · -- Bytes behind a complete response.
      have hclosed : closed = false := Bool.eq_false_iff.2 fun hclosed => hnil (hfin hclosed)
      rw [if_neg (by simpa using hnil)]
      refine .spoiled rfl fun more _ hlonger => ?_
      rw [append_assoc] at hlonger
      have hearlier := parseHttpResponse_earlier (by simp [hnil]) hlonger
      simp [hopen hclosed] at hearlier
  | spoiled hfailed hparse =>
    have hspoiled : ∀ more, ((closed || peerClosed) = true → more = []) →
        (parseHttpResponse (received ++ payload ++ more) true).status ≠ .complete := by
      intro more hmore
      rw [append_assoc]
      exact hparse _ fun hclosed => by rw [hfin hclosed, hmore (by rw [hclosed]; rfl)]; rfl
    split_ifs
    · exact .spoiled hfailed hspoiled
    · exact .spoiled rfl hspoiled
    · exact .spoiled hfailed hspoiled
  | waiting hcomplete hfailed hoverflowed hbuffer hseen hparse =>
    rw [hcomplete, hfailed, if_neg Bool.false_ne_true, if_neg Bool.false_ne_true]
    dsimp only
    rcases appendPayload_cases hoverflowed hbuffer payload with happend | ⟨hlong, happend⟩
    · rw [happend]
      have hfinSeen : (if peerClosed = true then
          { session with responseBuffer := received ++ payload, peerFinSeen := true }
          else { session with responseBuffer := received ++ payload }) =
          { session with
            responseBuffer := received ++ payload, peerFinSeen := closed || peerClosed } := by
        cases peerClosed with
        | true => rw [if_pos rfl, Bool.or_true]
        | false => rw [if_neg Bool.false_ne_true, Bool.or_false, ← hseen]
      rw [hfinSeen]
      generalize hnew : { session with
        responseBuffer := received ++ payload, peerFinSeen := closed || peerClosed } = new
      have hopen : new.responseOverflowed = false := by rw [← hnew]; exact hoverflowed
      rw [if_neg (by rw [hopen]; exact Bool.false_ne_true)]
      exact Standing.judged (by rw [← hnew]; exact hcomplete) (by rw [← hnew]; exact hfailed) hopen
        (by rw [← hnew]) (by rw [← hnew])
    · rw [happend]
      refine .spoiled (by split_ifs <;> simp_all) fun more _ hlonger => ?_
      have hlength := parseHttpResponse_complete_length hlonger
      rw [length_append] at hlength
      omega

theorem Standing.step (h : Standing received closed session) (event : ClientEvent)
    (hfin : closed = true → event.acceptedPayload = []) :
    Standing (received ++ event.acceptedPayload) (closed || event.peerClosed)
      (clientStep session event) := by
  have hreceived := h.receiveResponse event hfin
  unfold clientStep
  dsimp only
  split_ifs
  · exact hreceived.closing
  · exact hreceived

theorem Standing.run {events : List ClientEvent} (h : Standing received closed session)
    (hfin : closed = true → ∀ e ∈ events, e.acceptedPayload = [])
    (hlast : events.Pairwise fun e later => e.peerClosed = true → later.acceptedPayload = []) :
    Standing (received ++ events.flatMap (·.acceptedPayload))
      (closed || events.any (·.peerClosed)) (events.foldl clientStep session) := by
  induction events generalizing received closed session with
  | nil => simpa using h
  | cons event events ih =>
    obtain ⟨hevent, hevents⟩ := pairwise_cons.1 hlast
    have hstep := h.step event fun hclosed => hfin hclosed event mem_cons_self
    have hrun := ih hstep (fun hclosed e he => by
      rcases Bool.or_eq_true_iff.1 hclosed with hclosed | hclosed
      · exact hfin hclosed e (mem_cons_of_mem _ he)
      · exact hevent e he hclosed) hevents
    rwa [flatMap_cons, ← append_assoc, any_cons, ← Bool.or_assoc]

end

/-! ## The verdict -/

theorem Delivers.verdict {bytes : List Byte} {events : List ClientEvent}
    (h : Delivers bytes events) (hostHeader target : List Byte) :
    let final := events.foldl clientStep (awaitingResponse hostHeader target)
    final.succeeded = decide ((parseHttpResponse bytes true).status = .complete) ∧
      (final.succeeded = true →
        final.statusCode = ((parseHttpResponse bytes true).statusCode).getD 0 ∧
        final.body = (parseHttpResponse bytes true).body) := by
  have hstart : Standing [] false (awaitingResponse hostHeader target) :=
    .waiting rfl rfl rfl rfl rfl (by decide)
  have hrun := hstart.run (nofun) h.fin_last
  have hclosed : events.any (·.peerClosed) = true := any_eq_true.2 h.closed
  rw [h.bytes_eq, nil_append, hclosed, Bool.false_or] at hrun
  dsimp only
  generalize events.foldl clientStep (awaitingResponse hostHeader target) = final at hrun
  cases hrun with
  | waiting _ _ _ _ _ hparse => exact absurd hparse parseHttpResponse_true_ne_incomplete
  | done hcomplete hfailed hparse hcode hbody =>
    refine ⟨?_, fun _ => ⟨hcode, hbody⟩⟩
    rw [HttpClientSession.succeeded, hcomplete, hfailed, hparse]
    rfl
  | spoiled hfailed hparse =>
    have hne := hparse [] fun _ => rfl
    rw [append_nil] at hne
    have hsucceeded : final.succeeded = false := by
      rw [HttpClientSession.succeeded, hfailed, Bool.not_true, Bool.and_false]
    rw [hsucceeded]
    exact ⟨(decide_eq_false hne).symm, nofun⟩

/-- However TCP cuts the stream, the client comes to the same verdict, and on success to the same
    status code and body. -/
theorem httpClient_verdict_split {bytes : List Byte} {events events' : List ClientEvent}
    (h : Delivers bytes events) (h' : Delivers bytes events') (hostHeader target : List Byte) :
    let final := events.foldl clientStep (awaitingResponse hostHeader target)
    let final' := events'.foldl clientStep (awaitingResponse hostHeader target)
    final.succeeded = final'.succeeded ∧ (final.succeeded = true →
        final.statusCode = final'.statusCode ∧ final.body = final'.body) := by
  intro final final'
  obtain ⟨hsucceeded, hresult⟩ := h.verdict hostHeader target
  obtain ⟨hsucceeded', hresult'⟩ := h'.verdict hostHeader target
  have hsame : final.succeeded = final'.succeeded := hsucceeded.trans hsucceeded'.symm
  refine ⟨hsame, fun hsuccess => ?_⟩
  obtain ⟨hcode, hbody⟩ := hresult hsuccess
  obtain ⟨hcode', hbody'⟩ := hresult' (hsame ▸ hsuccess)
  exact ⟨hcode.trans hcode'.symm, hbody.trans hbody'.symm⟩

/-- A short response. -/
def exampleResponse : List Byte := ascii "HTTP/1.0 200 OK\r\nContent-Length: 2\r\n\r\nhi"

/-- In one piece with the FIN, and cut behind its first byte and in front of the FIN. -/
theorem httpClient_verdict_split_example :
    let whole := [⟨exampleResponse, true⟩].foldl clientStep (awaitingResponse [] [])
    let pieces := [⟨exampleResponse.take 1, false⟩, ⟨[], false⟩, ⟨exampleResponse.drop 1, false⟩,
      ⟨[], true⟩].foldl clientStep (awaitingResponse [] [])
    whole.succeeded = true ∧ pieces.succeeded = true ∧ whole.statusCode = pieces.statusCode ∧
      whole.body = pieces.body := by
  have hdelivers : Delivers exampleResponse [⟨exampleResponse, true⟩] :=
    ⟨by decide, by decide, by decide⟩
  have hdelivers' : Delivers exampleResponse [⟨exampleResponse.take 1, false⟩, ⟨[], false⟩,
      ⟨exampleResponse.drop 1, false⟩, ⟨[], true⟩] := ⟨by decide, by decide, by decide⟩
  have hsplit := httpClient_verdict_split hdelivers hdelivers' [] []
  have hwhole : ([⟨exampleResponse, true⟩].foldl clientStep
      (awaitingResponse [] [])).succeeded = true := by decide +kernel
  exact ⟨hwhole, hsplit.1 ▸ hwhole, hsplit.2 hwhole⟩

end Wirestack
