import Wirestack.Arp.History
import Wirestack.Arp.Packet

set_option autoImplicit false

/-! # Stations on a LAN (`main.cpp`)

How a station learns who its neighbours are, and whom it addresses. What the upper layers send is
left open. Frames may be lost, repeated, delayed and read by anyone. -/

namespace Wirestack

def MacAddress.kBroadcast : MacAddress := ⟨Vector.replicate 6 0xff⟩
def EtherType.ipv4 : UInt16 := 0x0800
def EtherType.arp : UInt16 := 0x0806

/-- The addresses that `main` is started with. -/
structure Station where
  localIp : Ipv4Address
  localMac : MacAddress
  deriving DecidableEq

/-- The protocol and the payload of an IPv4 packet. -/
abbrev Message := UInt8 × List Byte

abbrev Outcome := ArpCache × List EthernetFrame

namespace Station

variable (s : Station) (cache : ArpCache) (frame : EthernetFrame) (now : TimePoint)

def arpFrame (destination : MacAddress) (packet : ArpPacket) : EthernetFrame :=
  { destination := destination, source := s.localMac, etherType := EtherType.arp,
    payload := serializeArpPacket packet }

def sendArpRequest (target : Ipv4Address) : EthernetFrame :=
  s.arpFrame .kBroadcast (makeArpRequest s.localIp s.localMac target)

/-- How `sendEchoReply`, `sendUdpPacket` and `sendTcpSegment` end. What is too large is dropped. -/
def sendIpv4 (remoteIp : Ipv4Address) (remoteMac : MacAddress) (message : Message) :
    Option EthernetFrame :=
  match serializeIpv4Packet
    { protocol := message.1, source := s.localIp, destination := remoteIp,
      payload := message.2 } with
  | .error _ => none
  | .ok bytes =>
    some { destination := remoteMac, source := s.localMac, etherType := EtherType.ipv4,
           payload := bytes }

/-- `resolveNeighbor`, and the messages that its caller then sends. -/
def resolveNeighbor (target : Ipv4Address) (messages : List Message) : Outcome :=
  let (cache, mac) := cache.lookup target now
  match mac with
  | some mac => (cache, messages.filterMap (s.sendIpv4 target mac))
  | none =>
    let (cache, started) := cache.beginResolution target now
    (cache, if started then [s.sendArpRequest target] else [])

/-- The retry of a DNS query asks the cache alone: on a miss nothing is sent and no resolution
    begins. -/
def retryQuery (target : Ipv4Address) (message : Message) : Outcome :=
  let (cache, mac) := cache.lookup target now
  match mac with
  | some mac => (cache, [message].filterMap (s.sendIpv4 target mac))
  | none => (cache, [])

def handleArp : Outcome :=
  match parseArpPacket frame.payload with
  | .error _ => (cache, [])
  | .ok request =>
    if frame.source ≠ request.senderMac ∨ request.senderMac = ⟨Vector.replicate 6 0⟩ ∨
        request.senderMac = .kBroadcast then (cache, [])
    else if request.operation = .reply then
      if frame.destination ≠ s.localMac ∨ !isArpReplyFor s.localIp s.localMac request then
        (cache, [])
      else
        let (cache, state) := cache.stateOf request.senderIp now
        if state ≠ some .incomplete then (cache, [])
        else (cache.insert request.senderIp request.senderMac now, [])
    else
      match maybeReply request s.localIp s.localMac with
      | none => (cache, [])
      | some reply =>
        (if request.senderIp = ⟨Vector.replicate 4 0⟩ then cache
          else cache.insert request.senderIp request.senderMac now,
          [s.arpFrame request.senderMac reply])

/-- Up to the dispatch on the protocol. What the upper layers answer goes back to the sender. -/
def handleIpv4 (answers : List Message) : Outcome :=
  match parseIpv4Packet frame.payload with
  | .error _ => (cache, [])
  | .ok packet =>
    if packet.ttl = 0 ∨ packet.destination ≠ s.localIp then (cache, [])
    else (cache.insert packet.source frame.source now,
      answers.filterMap (s.sendIpv4 packet.source frame.source))

def receive (answers : List Message) : Outcome :=
  if frame.etherType = EtherType.arp then s.handleArp cache frame now
  else if frame.etherType = EtherType.ipv4 then s.handleIpv4 cache frame now answers
  else (cache, [])

end Station

/-! ## The LAN -/

/-- The cache of each station and the frames that were ever sent. -/
structure Lan where
  caches : Station → ArpCache := fun _ => {}
  sent : List EthernetFrame := []

/-- A station may read any frame, at any time and as often as it likes. -/
inductive StationPart where
  | receive (n : ℕ) (answers : List Message)
  | send (target : Ipv4Address) (messages : List Message)
  | retry (target : Ipv4Address) (message : Message)
  | poll

def Lan.part (lan : Lan) (s : Station) (now : TimePoint) : StationPart → Outcome
  | .receive n answers =>
    match lan.sent[n]? with
    | none => (lan.caches s, [])
    | some frame => s.receive (lan.caches s) frame now answers
  | .send target messages => s.resolveNeighbor (lan.caches s) now target messages
  | .retry target message => s.retryQuery (lan.caches s) now target message
  | .poll =>
    let (cache, due) := (lan.caches s).poll now
    (cache, due.requests.map s.sendArpRequest)

def Lan.step (lan : Lan) (s : Station) (now : TimePoint) (part : StationPart) : Lan :=
  let (cache, frames) := lan.part s now part
  { caches := Function.update lan.caches s cache, sent := lan.sent ++ frames }

variable (stations : Set Station)

def Lan.run (schedule : List (stations × TimePoint × StationPart)) : Lan :=
  schedule.foldl (fun lan turn => lan.step turn.1 turn.2.1 turn.2.2) {}

/-- A station sent the frame to all others, or to one that has the address it is meant for. -/
inductive StationFrame : EthernetFrame → Prop
  | ipv4 {s t : Station} {message : Message} {frame : EthernetFrame} (hs : s ∈ stations)
      (ht : t ∈ stations) (hsent : s.sendIpv4 t.localIp t.localMac message = some frame) :
      StationFrame frame
  | request {s : Station} {target : Ipv4Address} (hs : s ∈ stations) :
      StationFrame (s.sendArpRequest target)
  | reply {s : Station} {request : ArpPacket} (hs : s ∈ stations)
      (ht : ⟨request.senderIp, request.senderMac⟩ ∈ stations) :
      StationFrame (s.arpFrame request.senderMac (makeArpReply request s.localIp s.localMac))

/-- What the cache has resolved are addresses of stations. -/
def ArpCache.Truthful (cache : ArpCache) : Prop :=
  ∀ ip entry mac, cache.entries[ip]? = some entry → entry.state = .resolved →
    entry.mac = some mac → ⟨ip, mac⟩ ∈ stations

structure Sound (out : Outcome) : Prop where
  cache : out.1.Truthful stations
  frames : ∀ frame ∈ out.2, StationFrame stations frame

structure Lan.Truthful (lan : Lan) : Prop where
  caches : ∀ s, (lan.caches s).Truthful stations
  sent : ∀ frame ∈ lan.sent, StationFrame stations frame

/-! ## What a step keeps -/

section

variable {stations} {cache : ArpCache} {frame : EthernetFrame} (now : TimePoint) {s : Station}
  {ip : Ipv4Address} {mac : MacAddress} {lan : Lan}

theorem ArpCache.Truthful.step (h : cache.Truthful stations) (call : ArpCall)
    (hcall : ∀ ip mac, call = .insert ip mac → ⟨ip, mac⟩ ∈ stations) :
    (cache.step now call).1.Truthful stations := by
  intro ip entry mac hentry hstate hmac
  have hstep := cache.step_entry now call ip
  rw [hentry] at hstep
  obtain ⟨hbefore, -⟩ | ⟨inserted, hinsert, rfl⟩ := hstep.resolved hstate
  · exact h ip entry mac hbefore hstate hmac
  · cases hmac
    exact hcall ip mac hinsert

theorem ArpCache.Truthful.insert (h : cache.Truthful stations) (hstation : ⟨ip, mac⟩ ∈ stations) :
    (cache.insert ip mac now).Truthful stations := by
  refine h.step now (.insert ip mac) ?_
  rintro _ _ ⟨⟩
  exact hstation

theorem ArpCache.Truthful.lookup (h : cache.Truthful stations)
    (hmac : (cache.lookup ip now).2 = some mac) : ⟨ip, mac⟩ ∈ stations := by
  obtain ⟨entry, hentry, -, hstate, hmac⟩ := ArpCache.lookup_eq_some_iff.1 hmac
  exact h ip entry mac hentry hstate hmac

theorem ArpCache.Truthful.quiet (h : cache.Truthful stations) : Sound stations (cache, []) :=
  ⟨h, by simp⟩

theorem ArpCache.Truthful.send (h : cache.Truthful stations) (hs : s ∈ stations)
    (hstation : ⟨ip, mac⟩ ∈ stations) (messages : List Message) :
    Sound stations (cache, messages.filterMap (s.sendIpv4 ip mac)) := by
  refine ⟨h, fun frame hframe => ?_⟩
  obtain ⟨message, -, hsent⟩ := List.mem_filterMap.1 hframe
  exact .ipv4 hs hstation hsent

theorem parseIpv4Packet_of_serialize {packet : Ipv4Packet} {bytes : List Byte}
    (h : serializeIpv4Packet packet = .ok bytes) : parseIpv4Packet bytes = .ok packet := by
  by_cases hlength : Ipv4.kHeaderSize + packet.payload.length ≤ Ipv4.kMaxTotalLength
  · rw [serializeIpv4Packet_eq hlength] at h
    cases h
    simpa using parseIpv4Packet_header [] hlength
  · simp [serializeIpv4Packet, if_pos (not_le.1 hlength)] at h

theorem StationFrame.sender (h : StationFrame stations frame) :
    (frame.etherType = EtherType.arp → ∀ packet, parseArpPacket frame.payload = .ok packet →
      ⟨packet.senderIp, packet.senderMac⟩ ∈ stations) ∧
    (frame.etherType = EtherType.ipv4 → ∀ packet, parseIpv4Packet frame.payload = .ok packet →
      ⟨packet.source, frame.source⟩ ∈ stations) := by
  cases h with
  | ipv4 hs _ hsent =>
    unfold Station.sendIpv4 at hsent
    split at hsent
    · cases hsent
    · next bytes hbytes =>
      cases hsent
      refine ⟨fun (htype : EtherType.ipv4 = _) => absurd htype (by decide),
        fun _ packet hparsed => ?_⟩
      cases (parseIpv4Packet_of_serialize hbytes).symm.trans hparsed
      exact hs
  | request hs | reply hs =>
    refine ⟨fun _ packet hparsed => ?_, fun (htype : EtherType.arp = _) => absurd htype (by decide)⟩
    cases (parseArpPacket_serialize _).symm.trans hparsed
    exact hs

theorem Station.sound_handleArp (h : cache.Truthful stations) (hs : s ∈ stations)
    (hsender : ∀ packet, parseArpPacket frame.payload = .ok packet →
      ⟨packet.senderIp, packet.senderMac⟩ ∈ stations) :
    Sound stations (s.handleArp cache frame now) := by
  unfold Station.handleArp
  split
  · exact h.quiet
  · next request hrequest =>
    have hknown := hsender request hrequest
    split
    · exact h.quiet
    · split
      · split
        · exact h.quiet
        · have hstate := h.step now (.stateOf request.senderIp) (by simp)
          dsimp only
          split
          · exact hstate.quiet
          · exact (hstate.insert now hknown).quiet
      · unfold maybeReply
        by_cases htarget : request.targetIp = s.localIp
        · rw [if_neg (not_not.2 htarget)]
          refine ⟨?_, by simpa using .reply hs hknown⟩
          dsimp only
          split
          · exact h
          · exact h.insert now hknown
        · rw [if_pos htarget]
          exact h.quiet

theorem Lan.Truthful.part (hlan : lan.Truthful stations) (hs : s ∈ stations)
    (part : StationPart) : Sound stations (lan.part s now part) := by
  have h := hlan.caches s
  unfold Lan.part
  cases part with
  | receive n answers =>
    dsimp only
    split
    · exact h.quiet
    · next frame hframe =>
      have hsender := (hlan.sent _ (List.mem_of_getElem? hframe)).sender
      unfold Station.receive
      split_ifs with harp hipv4
      · exact Station.sound_handleArp now h hs (hsender.1 harp)
      · unfold Station.handleIpv4
        split
        · exact h.quiet
        · next packet hpacket =>
          have hknown := hsender.2 hipv4 packet hpacket
          split
          · exact h.quiet
          · exact (h.insert now hknown).send hs hknown answers
      · exact h.quiet
  | send target messages =>
    have hlooked := h.step now (.lookup target) (by simp)
    unfold Station.resolveNeighbor
    dsimp only
    split
    · next mac hmac => exact hlooked.send hs (h.lookup now hmac) messages
    · refine ⟨hlooked.step now (.beginResolution target) (by simp), ?_⟩
      split_ifs <;> simp [StationFrame.request hs]
  | retry target message =>
    have hlooked := h.step now (.lookup target) (by simp)
    unfold Station.retryQuery
    dsimp only
    split
    · next mac hmac => exact hlooked.send hs (h.lookup now hmac) [message]
    · exact hlooked.quiet
  | poll =>
    refine ⟨h.step now .poll (by simp), fun frame hframe => ?_⟩
    obtain ⟨target, -, rfl⟩ := List.mem_map.1 hframe
    exact .request hs

theorem Lan.Truthful.step (h : lan.Truthful stations) (hs : s ∈ stations)
    (part : StationPart) : (lan.step s now part).Truthful stations := by
  have hpart := h.part now hs part
  refine ⟨fun t => ?_, fun frame hframe => ?_⟩
  · by_cases ht : t = s
    · subst ht
      simpa [Lan.step] using hpart.cache
    · simpa [Lan.step, ht] using h.caches t
  · exact (List.mem_append.1 hframe).elim (h.sent frame) (hpart.frames frame)

end

/-- **Stations that hear only each other are never deceived.** However the frames travel, a lookup
    yields the addresses of one station, and every frame goes where it is meant to go. -/
theorem lan_truthful (schedule : List (stations × TimePoint × StationPart)) :
    let lan := Lan.run stations schedule
    (∀ s ip now mac, ((lan.caches s).lookup ip now).2 = some mac → ⟨ip, mac⟩ ∈ stations) ∧
    ∀ frame ∈ lan.sent, StationFrame stations frame := by
  have hrun : (Lan.run stations schedule).Truthful stations := by
    refine List.foldlRecOn schedule _ ?_ fun lan h turn _ => h.step turn.2.1 turn.1.2 turn.2.2
    exact ⟨fun s ip entry mac hentry => by simp at hentry, by simp⟩
  exact ⟨fun s ip now mac hmac => (hrun.caches s).lookup now hmac, hrun.sent⟩

end Wirestack
