import Wirestack.Http.Client
import Wirestack.Http.Request
import Wirestack.Tcp.Replay

set_option autoImplicit false

/-! # The TCP half of the runtime (`main.cpp`)

`handleTcp` hands a received segment to the connection table, sends what the table hands back, and
lets the HTTP server and the HTTP client look at the bytes that came out. The rest of the main loop
that reaches the table is the dial of an active open and the timers. Each handler returns the new
state of the runtime and the segments it passes to `sendTcpReply` or `sendTcpSegment`, in order; a
segment that then fails to serialize or to be written is only reported, so nothing else depends on
it. Printing is left out. -/

namespace Wirestack

def kTcpListenPort : UInt16 := 8080

/-- The variables of `main` that concern TCP. -/
structure Stack where
  localIp : Ipv4Address
  connections : TcpConnectionTable
  httpSessions : Std.ExtTreeMap TcpConnectionKey HttpConnectionState := ∅
  httpClientSessions : Std.ExtTreeMap TcpConnectionKey HttpClientSession := ∅
  activeOpenKey : Option TcpConnectionKey := none
  activeOpenStarted : Bool := false

/-! ## The HTTP server -/

/-- The response to what has been received so far, if it is time for one. A request that is cut off
    by the peer's FIN is answered as a bad one. -/
def chooseResponse (buffer : List Byte) (peerClosed : Bool) : Option HttpResponse :=
  let parsed := parseHttpRequest buffer
  match parsed.status with
  | .incomplete => if peerClosed then some makeBadRequestResponse else none
  | .complete => parsed.request.map selectResponse
  | .malformed => some makeBadRequestResponse
  | .tooLarge => some makeBadRequestResponse
  | .unsupportedMethod => some makeMethodNotAllowedResponse
  | .unsupportedVersion => some makeVersionNotSupportedResponse

/-- Queue the whole response and request the close; a response that cannot be queued is dropped. -/
def sendResponse (t : TcpConnectionTable) (key : TcpConnectionKey) (response : HttpResponse)
    (now : TimePoint) : TcpConnectionTable × List TcpSegment :=
  let (t, sent) := t.makeOutgoingData key (serializeHttpResponse response) now
  if sent.error.isSome then (t, [])
  else
    let (t, closed) := t.beginClose key now
    (t, sent.segments ++ closed.fin.toList)

/-- The part of `handleTcp` that serves HTTP requests. -/
def Stack.serveHttp (s : Stack) (key : TcpConnectionKey) (result : TcpReceiveResult)
    (now : TimePoint) : Stack × List TcpSegment :=
  if (!result.acceptedPayload.isEmpty || result.peerClosed) && s.activeOpenKey != some key then
    -- `http_sessions[key]` creates the session on first use.
    let session := (s.httpSessions[key]?).getD {}
    if session.responded then
      ({ s with httpSessions := s.httpSessions.insert key session }, [])
    else
      let session := if result.acceptedPayload.isEmpty then session
        else appendHttpBytes session result.acceptedPayload
      match chooseResponse session.buffer result.peerClosed with
      | none => ({ s with httpSessions := s.httpSessions.insert key session }, [])
      | some response =>
        let (t, segments) := sendResponse s.connections key response now
        ({ s with
            connections := t
            httpSessions := s.httpSessions.insert key { session with responded := true } },
          segments)
  else (s, [])

/-! ## The HTTP client -/

/-- Enqueue the request, on the call that completes the handshake. -/
def enqueueRequest (t : TcpConnectionTable) (key : TcpConnectionKey) (session : HttpClientSession)
    (result : TcpReceiveResult) (now : TimePoint) :
    TcpConnectionTable × HttpClientSession × List TcpSegment :=
  if result.connectionEstablished && !session.requestEnqueued then
    match buildHttpGetRequest session.hostHeader session.target with
    | none => (t, { session with failed := true }, [])
    | some request =>
      let (t, sent) := t.makeOutgoingData key request now
      if sent.error.isSome then (t, { session with failed := true }, [])
      else (t, { session with requestEnqueued := true }, sent.segments)
  else (t, session, [])

/-- What newly accepted payload and the peer's FIN do to the session. -/
def receiveResponse (session : HttpClientSession) (acceptedPayload : List Byte)
    (peerClosed : Bool) : HttpClientSession :=
  if session.responseComplete then
    -- Anything after a complete response spoils it.
    if acceptedPayload.isEmpty then session else { session with failed := true }
  else if session.failed then session
  else
    let session := if acceptedPayload.isEmpty then session
      else appendHttpClientBytes session acceptedPayload
    let session := if peerClosed then { session with peerFinSeen := true } else session
    if session.responseOverflowed then { session with failed := true }
    else
      let parsed := parseHttpResponse session.responseBuffer session.peerFinSeen
      match parsed.status with
      | .incomplete => session
      | .complete =>
        { session with
          responseComplete := true
          statusCode := parsed.statusCode.getD 0
          body := parsed.body }
      | .malformed => { session with failed := true }
      | .tooLarge => { session with failed := true }
      | .unsupportedVersion => { session with failed := true }
      | .unsupportedTransferEncoding => { session with failed := true }
      | .truncated => { session with failed := true }

/-- Request the close once, as soon as the verdict is known. -/
def closeWhenDone (t : TcpConnectionTable) (key : TcpConnectionKey) (session : HttpClientSession)
    (now : TimePoint) : TcpConnectionTable × HttpClientSession × List TcpSegment :=
  if (session.responseComplete || session.failed) && !session.closeInitiated then
    let (t, closed) := t.beginClose key now
    (t, { session with closeInitiated := true }, closed.fin.toList)
  else (t, session, [])

def Stack.handleHttpClient (s : Stack) (key : TcpConnectionKey) (result : TcpReceiveResult)
    (now : TimePoint) : Stack × List TcpSegment :=
  match s.httpClientSessions[key]? with
  | none => (s, [])
  | some session =>
    let (t, session, request) := enqueueRequest s.connections key session result now
    let session := receiveResponse session result.acceptedPayload result.peerClosed
    let (t, session, fin) := closeWhenDone t key session now
    ({ s with
        connections := t
        httpClientSessions := s.httpClientSessions.insert key session },
      request ++ fin)

/-! ## Segment arrival -/

/-- Both HTTP roles, in the order in which `handleTcp` gives them the result. -/
def Stack.handleHttp (s : Stack) (key : TcpConnectionKey) (result : TcpReceiveResult)
    (now : TimePoint) : Stack × List TcpSegment :=
  let (s, response) := s.serveHttp key result now
  let (s, request) := s.handleHttpClient key result now
  (s, response ++ request)

def Stack.eraseSessions (s : Stack) (key : TcpConnectionKey) : Stack :=
  { s with
    httpSessions := s.httpSessions.erase key
    httpClientSessions := s.httpClientSessions.erase key }

/-- The four-tuple of a segment that arrives from `source`. -/
def Stack.keyOf (s : Stack) (source : Ipv4Address) (segment : TcpSegment) : TcpConnectionKey :=
  { localIp := s.localIp
    localPort := segment.destinationPort
    remoteIp := source
    remotePort := segment.sourcePort }

/-- `parsed` is what `parseTcpSegment` makes of the packet; a malformed segment is dropped. -/
def Stack.handleTcp (s : Stack) (memory : ℕ → Byte) (source : Ipv4Address)
    (parsed : Option TcpSegment) (now : TimePoint) : Stack × List TcpSegment :=
  match parsed with
  | none => (s, [])
  | some segment =>
    let key := s.keyOf source segment
    let (t, result) := s.connections.handle memory key segment now
    let (s, http) := { s with connections := t }.handleHttp key result now
    let s := if result.connectionReset || result.connectionClosed then s.eraseSessions key else s
    (s, result.reply.toList ++ result.fastRetransmit.toList ++ result.scheduled ++ http)

/-! ## Dialing and timers -/

/-- The one attempt at the active open, made once the peer's address is resolved. `request` holds
    the host header and the target when the runtime is to fetch something. -/
def Stack.dial (s : Stack) (request : Option (List Byte × List Byte)) (now : TimePoint) :
    Stack × List TcpSegment :=
  match s.activeOpenKey with
  | none => (s, [])
  | some key =>
    if s.activeOpenStarted then (s, [])
    else
      let (t, connected) := s.connections.beginConnect key now
      let s := { s with connections := t, activeOpenStarted := true }
      match connected.accepted, connected.syn, request with
      | true, some syn, some (hostHeader, target) =>
        ({ s with
            httpClientSessions := s.httpClientSessions.insertIfNew key
              { hostHeader := hostHeader, target := target } }, [syn])
      | true, some syn, none => (s, [syn])
      | _, _, _ => (s, [])

/-- Both polls of the main loop. A segment is sent when the MAC address of its key is known. -/
def Stack.pollTimers (s : Stack) (now : TimePoint) :
    Stack × List (TcpConnectionKey × TcpSegment) :=
  let (t, due) := s.connections.pollRetransmissions now
  let (t, probes) := t.pollPersistProbes now
  let s := due.timedOut.foldl Stack.eraseSessions { s with connections := t }
  (due.timeWaitExpired.foldl Stack.eraseSessions s, due.retransmissions ++ probes)

/-! ## Runs of the main loop -/

/-- What the main loop can do to the state. A DNS answer sets the key of the active open, and a
    neighbour that cannot be resolved uses up the attempt. -/
inductive StackStep : Stack → Stack → Prop where
  | received (s : Stack) (memory : ℕ → Byte) (source : Ipv4Address) (parsed : Option TcpSegment)
      (now : TimePoint) : StackStep s (s.handleTcp memory source parsed now).1
  | resolved (s : Stack) (key : TcpConnectionKey) : StackStep s { s with activeOpenKey := some key }
  | unreachable (s : Stack) : StackStep s { s with activeOpenStarted := true }
  | dialed (s : Stack) (request : Option (List Byte × List Byte)) (now : TimePoint) :
      StackStep s (s.dial request now).1
  | polled (s : Stack) (now : TimePoint) : StackStep s (s.pollTimers now).1

/-- The state before the main loop, with the key of an active open to a literal address. -/
def Stack.initial (localIp : Ipv4Address) (isnGenerator : ℕ → Option SeqNum)
    (activeOpenKey : Option TcpConnectionKey) : Stack :=
  { localIp := localIp
    connections := { listenPort := kTcpListenPort, isnGenerator := isnGenerator }
    activeOpenKey := activeOpenKey }

inductive StackRun : Stack → Prop where
  | initial (localIp : Ipv4Address) (isnGenerator : ℕ → Option SeqNum)
      (activeOpenKey : Option TcpConnectionKey) :
      StackRun (Stack.initial localIp isnGenerator activeOpenKey)
  | step (s s' : Stack) : StackRun s → StackStep s s' → StackRun s'

/-! ## The table of a run

The runtime reaches the table through its public calls only, so what holds of every reachable table
holds of the one that `main` owns. -/

def TcpConnectionTable.Reached (t : TcpConnectionTable) : Prop :=
  ∃ traced : Traced, Reachable traced ∧ traced.table = t

theorem TcpConnectionTable.Reached.apply {t : TcpConnectionTable} (h : t.Reached) (op : Op) :
    (t.apply op).Reached := by
  obtain ⟨traced, hreachable, rfl⟩ := h
  exact ⟨traced.step op, .step traced op hreachable trivial, rfl⟩

/-- What the HTTP layer does to the table on behalf of one connection, with the segments it sends. -/
inductive HttpCalls (key : TcpConnectionKey) (now : TimePoint) :
    TcpConnectionTable → TcpConnectionTable → List TcpSegment → Prop where
  | none (t : TcpConnectionTable) : HttpCalls key now t t []
  | send (t : TcpConnectionTable) (payload : List Byte) :
      HttpCalls key now t (t.makeOutgoingData key payload now).1
        (t.makeOutgoingData key payload now).2.segments
  | close (t : TcpConnectionTable) :
      HttpCalls key now t (t.beginClose key now).1 (t.beginClose key now).2.fin.toList
  | append (t t₁ t₂ : TcpConnectionTable) (sent sent' : List TcpSegment) :
      HttpCalls key now t t₁ sent → HttpCalls key now t₁ t₂ sent' →
      HttpCalls key now t t₂ (sent ++ sent')

theorem HttpCalls.reached {key : TcpConnectionKey} {now : TimePoint} {t t' : TcpConnectionTable}
    {sent : List TcpSegment} (h : HttpCalls key now t t' sent) : t.Reached → t'.Reached := by
  induction h with
  | none t => exact id
  | send t payload => exact fun hreached => hreached.apply (.makeOutgoingData key payload now)
  | close t => exact fun hreached => hreached.apply (.beginClose key now)
  | append _ _ _ _ _ _ _ ih₁ ih₂ => exact fun hreached => ih₂ (ih₁ hreached)

section

variable {t : TcpConnectionTable} {s : Stack} (key : TcpConnectionKey) (result : TcpReceiveResult)
  (now : TimePoint)

section

variable (t : TcpConnectionTable) (session : HttpClientSession) (response : HttpResponse)
  (payload : List Byte)

theorem makeOutgoingData_refused (h : (t.makeOutgoingData key payload now).2.error.isSome = true) :
    (t.makeOutgoingData key payload now).2.segments = [] := by
  revert h
  unfold TcpConnectionTable.makeOutgoingData
  split
  · exact fun _ => rfl
  split
  · exact fun _ => rfl
  split
  · exact fun _ => rfl
  · next c _ =>
    rcases enqueueData_cases key c payload now with ⟨error, heq⟩ | ⟨-, -, -, heq⟩
    · exact fun _ => by rw [heq]
    · rw [heq]
      exact fun h => by cases h

theorem sendResponse_calls : HttpCalls key now t (sendResponse t key response now).1
      (sendResponse t key response now).2 := by
  have hsend : HttpCalls key now _ _ _ := .send t (serializeHttpResponse response)
  have hrefused := makeOutgoingData_refused key now t (serializeHttpResponse response)
  unfold sendResponse
  generalize t.makeOutgoingData key (serializeHttpResponse response) now = sent at hsend hrefused ⊢
  dsimp only
  split_ifs with herror
  · rwa [hrefused herror] at hsend
  · exact hsend.append _ _ _ _ _ (.close sent.1)

theorem enqueueRequest_calls : HttpCalls key now t (enqueueRequest t key session result now).1
      (enqueueRequest t key session result now).2.2 := by
  unfold enqueueRequest
  split
  · split
    · exact .none t
    · next request _ =>
      have hsend : HttpCalls key now _ _ _ := .send t request
      have hrefused := makeOutgoingData_refused key now t request
      generalize t.makeOutgoingData key request now = sent at hsend hrefused ⊢
      dsimp only
      split_ifs with herror
      · rwa [hrefused herror] at hsend
      · exact hsend
  · exact .none t

theorem closeWhenDone_calls :
    HttpCalls key now t (closeWhenDone t key session now).1 (closeWhenDone t key session now).2.2 := by
  unfold closeWhenDone
  split
  · exact .close t
  · exact .none t

end

namespace Stack

theorem serveHttp_calls (s : Stack) :
    HttpCalls key now s.connections (s.serveHttp key result now).1.connections
      (s.serveHttp key result now).2 := by
  unfold serveHttp
  dsimp only
  split
  · split
    · exact .none _
    · split
      · exact .none _
      · next response _ =>
        have hsend := sendResponse_calls key now s.connections response
        generalize sendResponse s.connections key response now = sent at hsend ⊢
        exact hsend
  · exact .none _

theorem handleHttpClient_calls (s : Stack) :
    HttpCalls key now s.connections (s.handleHttpClient key result now).1.connections
      (s.handleHttpClient key result now).2 := by
  unfold handleHttpClient
  split
  · exact .none _
  · next session _ =>
    exact (enqueueRequest_calls key result now s.connections session).append _ _ _ _ _
      (closeWhenDone_calls ..)

theorem handleHttp_calls (s : Stack) :
    HttpCalls key now s.connections (s.handleHttp key result now).1.connections
      (s.handleHttp key result now).2 :=
  (serveHttp_calls key result now s).append _ _ _ _ _ (handleHttpClient_calls ..)

theorem handleTcp_reached (h : s.connections.Reached) (memory : ℕ → Byte)
    (source : Ipv4Address) (parsed : Option TcpSegment) :
    (s.handleTcp memory source parsed now).1.connections.Reached := by
  unfold handleTcp
  split
  · exact h
  · next segment =>
    have hhandled := h.apply (.handle memory (s.keyOf source segment) segment now)
    rw [TcpConnectionTable.apply] at hhandled
    dsimp only
    generalize s.connections.handle memory _ segment now = out at hhandled ⊢
    have hhttp := (handleHttp_calls (s.keyOf source segment) out.2 now
      { s with connections := out.1 }).reached hhandled
    split <;> exact hhttp

theorem dial_reached (h : s.connections.Reached) (request : Option (List Byte × List Byte)) :
    (s.dial request now).1.connections.Reached := by
  unfold dial
  split
  · exact h
  · next key _ =>
    have hconnected := h.apply (.beginConnect key now)
    split
    · exact h
    · dsimp only
      split <;> exact hconnected

theorem eraseSessions_connections (keys : List TcpConnectionKey) :
    (keys.foldl eraseSessions s).connections = s.connections := by
  induction keys generalizing s with
  | nil => rfl
  | cons key keys ih => exact ih

theorem pollTimers_reached (h : s.connections.Reached) :
    (s.pollTimers now).1.connections.Reached := by
  unfold pollTimers
  rw [eraseSessions_connections, eraseSessions_connections]
  exact (h.apply (.pollRetransmissions now)).apply (.pollPersistProbes now)

end Stack

end

theorem stackRun_reached {s : Stack} (h : StackRun s) : s.connections.Reached := by
  induction h with
  | initial localIp isnGenerator activeOpenKey => exact ⟨_, .start _ rfl, rfl⟩
  | step s s' _ hstep ih =>
    cases hstep with
    | received memory source parsed now => exact Stack.handleTcp_reached now ih memory source parsed
    | resolved | unreachable => exact ih
    | dialed request now => exact Stack.dial_reached now ih request
    | polled now => exact Stack.pollTimers_reached now ih

end Wirestack
