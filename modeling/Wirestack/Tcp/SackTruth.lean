import Wirestack.Tcp.Agreement
import Wirestack.Tcp.Emission
import Wirestack.Tcp.Scoreboard

set_option autoImplicit false

/-! # SACK marks are truthful

What one end of the two-table system has received only grows, and every SACK block it ever emits
names bytes it has. So a report may arrive late, twice or out of order and is still true, and so is
every mark that the other end sets from it. -/

namespace Wirestack

open SerialNumber Chunks Connection Option

variable {o k : ℕ} {b : Byte} {s : Traced} {listenPort : UInt16}

variable {c c' : Connection} {h : History} {e : Event} {key : TcpConnectionKey}

/-! ## What a receiver has -/

/-- Offset `k` of the peer's stream lies below `rcvNxt` or in the reassembly buffer. -/
def Held (h : History) (c : Connection) (k : ℕ) : Prop :=
  k < h.taken ∨ ∃ o, k = h.taken + o ∧ Covers c.buffered o

theorem receivedWith_retains (hok : BufferOk c.rcvNxt c.outOfOrder) (memory : ℕ → Byte)
    (segment : TcpSegment) (hb : Holds c.buffered o b) : o < (releasedBy memory c segment).length ∨
    ∃ o', o = (releasedBy memory c segment).length + o' ∧
      Holds (receivedWith memory c segment).buffered o' b := by
  have hold := (storeSegment_stored hok memory segment).old o b hb
  obtain ⟨kept, heq, hrel⟩ := receivedWith_release hok memory segment
  rw [heq]
  generalize releasedBy memory c segment = released at hrel ⊢
  have hbeyond : ∀ d ∈ buffer c.rcvNxt kept, released.length ≤ d.start :=
    fun d hd => (hrel.beyond d hd).le
  refine (hrel.split o b hold).imp_right fun hkept => ?_
  obtain ⟨d, hd, hhas⟩ := hkept
  have hle : released.length ≤ o := (hbeyond d hd).trans hhas.1
  refine ⟨o - released.length, by omega, ?_⟩
  change Holds (buffer (pos c.rcvNxt released.length) kept) (o - released.length) b
  rw [holds_rebase hbeyond, show released.length + (o - released.length) = o by omega]
  exact ⟨d, hd, hhas⟩

theorem receivePart_retains (hok : BufferOk c.rcvNxt c.outOfOrder) (memory : ℕ → Byte)
    (segment : TcpSegment) (now : TimePoint) (hb : Holds c.buffered o b) :
    o < (receivePart memory c segment now).accepted.length +
        (if (receivePart memory c segment now).peerClosed then 1 else 0) ∨
    ∃ o', o = (receivePart memory c segment now).accepted.length +
        (if (receivePart memory c segment now).peerClosed then 1 else 0) + o' ∧
      Holds (receivePart memory c segment now).connection.buffered o' b := by
  have hspec := receivedWith_spec hok memory segment
  have hretains := receivedWith_retains hok memory segment hb
  have hcases := receivePart_cases memory c segment now
  generalize receivePart memory c segment now = part at hcases ⊢
  generalize receivedWith memory c segment = received at hcases hspec hretains
  generalize releasedBy memory c segment = released at hcases hspec hretains
  cases hcases with
  | ignored => exact .inr ⟨o, by simp, hb⟩
  | stored => simpa using hretains
  | consumed =>
    rcases hretains with hlt | ⟨o', ho, hheld⟩
    · exact .inl (by simp; omega)
    · obtain ⟨hrcv, hout, -⟩ := bufferOk_congr (peerFinTransition_receive
        { received with rcvNxt := received.rcvNxt + 1, pendingFinSeq := none } now)
      obtain ⟨d, hd, hhas⟩ := hheld
      have hpos : 0 < o' := (hspec.ahead d hd).trans_le hhas.1
      refine .inr ⟨o' - 1, by simp; omega, ?_⟩
      rw [buffered, hrcv, hout]
      change Holds (buffer (received.rcvNxt + 1) received.outOfOrder) (o' - 1) b
      rw [← pos_one, holds_rebase hspec.ahead, show 1 + (o' - 1) = o' by omega]
      exact ⟨d, hd, hhas⟩

theorem Held.step (hk : Held h c k) (hinv : ReceiveInv c) (hstep : ReceiveStep c e (some c')) :
    Held (h ++ [e]) c' k := by
  unfold Held at hk ⊢
  rw [History.taken_append]
  rcases hk with hlt | ⟨o, rfl, hcovers⟩
  · exact .inl (by omega)
  · cases hstep with
    | still hdelivered hclosed hsame =>
      obtain ⟨hrcv, hout, -⟩ := bufferOk_congr (hsame c' rfl).1
      refine .inr ⟨o, by simp [hdelivered, hclosed], ?_⟩
      rwa [buffered, hrcv, hout]
    | arrival memory segment result now c₀ part _ harrives hpart hdelivered hclosed hafter =>
      obtain ⟨hrcv₀, hout₀, -⟩ := bufferOk_congr harrives.receive
      obtain ⟨hrcv, hout, -⟩ := bufferOk_congr (hafter c' rfl).1
      have hok : BufferOk c₀.rcvNxt c₀.outOfOrder := by
        rw [hrcv₀, hout₀]
        exact hinv.ok
      obtain ⟨b, hb⟩ := covers_iff_holds.1 hcovers
      have hb₀ : Holds c₀.buffered o b := by rwa [buffered, hrcv₀, hout₀]
      have hretains := receivePart_retains hok memory segment now hb₀
      rw [← hpart, ← hdelivered, ← hclosed] at hretains
      rcases hretains with hlt | ⟨o', rfl, hheld⟩
      · exact .inl (by omega)
      · refine .inr ⟨o', by omega, covers_iff_holds.2 ⟨b, ?_⟩⟩
        rwa [buffered, hrcv, hout]

theorem trueBlock_of_fragment {first : SeqNum} (hinv : ReceiveInv c)
    (hrcv : c.rcvNxt = pos first h.taken) (hbound : ∀ o, Covers c.buffered o → h.taken + o < 2 ^ 30)
    {f : TcpReassemblyFragment} (hf : f ∈ c.outOfOrder) :
    TrueBlock first (Held h c) ⟨f.sequenceStart, f.sequenceEnd⟩ := by
  have hmem : f.toChunk c.rcvNxt ∈ c.buffered := List.mem_map_of_mem hf
  have hne := hinv.ok.canonical.nonempty _ hmem
  have hlt := Chunk.start_lt_stop hne
  have hcovers : ∀ o, (f.toChunk c.rcvNxt).start ≤ o → o < (f.toChunk c.rcvNxt).stop →
      Covers c.buffered o := fun o hlo hhi => ⟨_, hmem, hlo, hhi⟩
  have hlast := hbound _ (hcovers ((f.toChunk c.rcvNxt).stop - 1) (by omega) (by omega))
  refine ⟨h.taken + (f.toChunk c.rcvNxt).start, h.taken + (f.toChunk c.rcvNxt).stop, ?_, ?_,
    by omega, by omega, fun k hlo hhi => ?_⟩
  · rw [← pos_pos, ← hrcv]
    exact (pos_ahead c.rcvNxt f.sequenceStart).symm
  · rw [← pos_pos, ← hrcv]
    exact sequenceEnd_eq_pos ..
  · exact .inr ⟨k - h.taken, by omega, hcovers _ (by omega) (by omega)⟩

/-! ## What a receiver reports -/

section Reports

variable {key : TcpConnectionKey} {c c' : Connection} {e : Event} {h : History}

theorem ConnStep.sackBlocks (hstep : ConnStep h c e c') (hcall : CallKept key c e c')
    {segment : TcpSegment} (hmem : segment ∈ e.emitted) (hsyn : segment.flags.syn = false)
    {options : TcpParsedOptions} (hoptions : parseTcpOptions segment.options = .ok options)
    {block : TcpSackBlock} (hblock : block ∈ options.sackBlocks) :
    ∃ f ∈ c'.outOfOrder, block = ⟨f.sequenceStart, f.sequenceEnd⟩ := by
  cases hstep.emission hcall hmem with
  | activeSyn hflags _ _ | synAck _ _ hflags _ _ =>
    simp [hflags] at hsyn
  | pureAck c₁ mostRecent hleft _ _ hbytes =>
    rw [hbytes, parse_buildSackOptions (length_reportedBlocks_le c₁ mostRecent)] at hoptions
    obtain rfl := Except.ok.inj hoptions
    rw [← hleft.1]
    exact mem_reportedBlocks hblock
  | plain _ _ hnil =>
    rw [hnil] at hoptions
    obtain rfl := Except.ok.inj hoptions
    cases hblock

end Reports

/-! ## The pair -/

/-- Where the receive side of a synchronized connection stands in the peer's stream. -/
structure Located (first : SeqNum) (h : History) (c : Connection) : Prop where
  inv : ReceiveInv c
  rcvNxt : c.rcvNxt = pos first h.taken
  taken : h.taken ≤ 2 ^ 30
  bound : ∀ o, Covers c.buffered o → h.taken + o < 2 ^ 30

section Located

variable {s : Traced} (hs : Reachable s) {key : TcpConnectionKey} {c : Connection}
  (hc : s.table.find? key = some c) {hy : History} {cy : Option Connection}
  (hspeak : Link (s.history key) hy (s.table.find? key) cy)
  (hlisten : Link hy (s.history key) cy (s.table.find? key))
  (hslices : ∀ c', cy = some c' → ∀ segment ∈ hy.emittedInSequence,
    Slice hy.accepted c'.localIsn segment)
  (hbound : hy.accepted.length < 2 ^ 30)

include hs hc hspeak hlisten hslices hbound

theorem Link.located (hsync : c.state.synchronized = true) (hc' : cy = some c') :
    Located (c'.localIsn + 1) (s.history key) c := by
  have htaken := Link.taken_le hs hspeak hlisten hslices hbound
  rw [hc] at hspeak hlisten
  obtain ⟨-, hstream⟩ := Link.stream hs hc hsync hspeak hlisten hslices hbound
  have hrcv := Link.rcvNxt hs hc hsync hspeak hlisten hslices hbound
  obtain ⟨_, hpeer, hisn⟩ := hspeak.remote c rfl hsync
  obtain rfl := some.inj (hc'.symm.trans hpeer)
  rw [← hisn]
  refine ⟨Run.receiveInv hs hc, hrcv, by omega, fun o hcovers => ?_⟩
  obtain ⟨b, hb⟩ := covers_iff_holds.1 hcovers
  obtain ⟨hlt, -⟩ := List.getElem?_eq_some_iff.1 (hstream.buffered o b hb)
  rw [History.taken, (Run.connInv hs hc).peerClosed]
  change (s.history key).delivered.length + c.finTaken + o < _
  omega

end Located

/-- The speaker `x` knows of the listener `y` only what is true: the blocks of everything `y` ever
    emitted, and the marks on its own queue. -/
structure Reports (hx hy : History) (cx cy : Option Connection) : Prop where
  blocks : ∀ a b, cx = some a → cy = some b → ∀ segment ∈ hy.emitted, segment.flags.syn = false →
    ∀ options, parseTcpOptions segment.options = .ok options → ∀ block ∈ options.sackBlocks,
      TrueBlock (a.localIsn + 1) (Held hy b) block
  marks : ∀ a, cx = some a → ∀ e ∈ a.pending, e.sacked = true → ∃ b, cy = some b ∧
    ∀ x, e.Spans x → ∃ k, x = pos (a.localIsn + 1) k ∧ Held hy b k

section Reports

variable {hx hy h₀ : History} {cx cy : Option Connection} {a a' b b' : Connection} {e : Event}
  {key : TcpConnectionKey}

theorem Reports.of_unmarked (hmarks : ∀ a, cx = some a → ∀ e ∈ a.pending, e.sacked = false)
    (hsyns : cx.isSome = true → cy.isSome = true → ∀ segment ∈ hy.emitted,
      segment.flags.syn = true) : Reports hx hy cx cy where
  blocks := by
    rintro a b rfl rfl segment hmem hsyn
    simp [hsyns rfl rfl segment hmem] at hsyn
  marks := by
    intro a ha e he hmark
    simp [hmarks a ha e he] at hmark

theorem Reports.absent (hx hy : History) (cy : Option Connection) : Reports hx hy none cy where
  blocks := fun _ _ h => nomatch h
  marks := fun _ h => nomatch h

theorem Reports.speaks (h : Reports hx hy (some a) cy) (hstep : ConnStep hx a e a')
    (hcall : CallKept key a e a') (hsmall : hx.accepted.length < 2 ^ 30)
    (hreceived : ∀ segment ∈ e.received, segment ∈ hy.emitted) (hsilent : cy = none → hy.emitted = []) :
    Reports (hx ++ [e]) hy (some a') cy := by
  have hisn := hstep.localIsn
  constructor
  · rintro _ b ⟨rfl⟩ hb
    rw [hisn]
    exact h.blocks a b rfl hb
  · rintro _ ⟨rfl⟩ e' he' hmark
    rw [hisn]
    rcases hcall.marks with hfrom | ⟨segment, result, options, now, rfl, hsync, hproc, hfrom⟩
    · obtain ⟨e₀, he₀, hmark₀, hspans⟩ := hfrom.source e' he' hmark
      obtain ⟨b, hb, hheld⟩ := h.marks a rfl e₀ he₀ hmark₀
      exact ⟨b, hb, fun x hx => hheld x (hspans x hx)⟩
    · have hmem := hreceived segment (List.mem_singleton_self _)
      cases cy with
      | none =>
        simp [hsilent rfl] at hmem
      | some b =>
        refine ⟨b, rfl, fun x hx => ?_⟩
        obtain ⟨e₀, he₀, hmark₀, hspans⟩ := hfrom.source e' he' hmark
        obtain ⟨u, -, hsynced, -⟩ := hstep.synchronized hsync
        refine hsynced.marks_afterRetire hsmall hproc now ?_ ?_ e₀ he₀ hmark₀ x (hspans x hx)
        · exact h.blocks a b rfl rfl segment hmem hproc.syn options hproc.options
        · intro e₁ he₁ hmark₁ x₁ hx₁
          obtain ⟨_, ⟨rfl⟩, hheld⟩ := h.marks a rfl e₁ he₁ hmark₁
          exact hheld x₁ hx₁

theorem Reports.listens (h : Reports hx hy cx (some b)) (hstep : ConnStep h₀ b e b')
    (hcall : CallKept key b e b') (hheld : ∀ k, Held hy b k → Held (hy ++ [e]) b' k)
    (hloc : ∀ a, cx = some a → b'.state.synchronized = true →
      Located (a.localIsn + 1) (hy ++ [e]) b')
    (hempty : b'.state.synchronized = false → b'.outOfOrder = []) :
    Reports hx (hy ++ [e]) cx (some b') := by
  constructor
  · rintro a _ ha ⟨rfl⟩ segment hmem hsyn options hoptions block hblock
    rw [History.emitted_append, List.mem_append] at hmem
    rcases hmem with hmem | hmem
    · exact (h.blocks a b ha rfl segment hmem hsyn options hoptions block hblock).mono hheld
    · obtain ⟨f, hf, rfl⟩ := hstep.sackBlocks hcall hmem hsyn hoptions hblock
      have hsync : b'.state.synchronized = true := by
        rw [← Bool.not_eq_false]
        intro hnot
        simp [hempty hnot] at hf
      have hb := hloc a ha hsync
      exact trueBlock_of_fragment hb.inv hb.rcvNxt hb.bound hf
  · intro a ha e' he' hmark
    obtain ⟨_, ⟨rfl⟩, hall⟩ := h.marks a ha e' he' hmark
    refine ⟨b', rfl, fun x hx => ?_⟩
    obtain ⟨k, hk, hheld₀⟩ := hall x hx
    exact ⟨k, hk, hheld k hheld₀⟩

end Reports

theorem not_held_of_halfOpen (hopen : HalfOpen c) (htaken : h.taken = 0) (k : ℕ) :
    ¬ Held h c k := by
  rintro (hlt | ⟨o, -, hcovers⟩)
  · omega
  · obtain ⟨d, hd, -⟩ := hcovers
    rw [buffered, hopen.received.outOfOrder] at hd
    cases hd

theorem Run.halfOpen (hs : Reachable s) (hc : s.table.find? key = some c)
    (hnot : c.state.synchronized = false) : HalfOpen c := by
  cases (Run.connInv hs hc).ok with
  | halfOpen hopen => exact hopen
  | synced u hsynced =>
    simp [hsynced.synchronized] at hnot

theorem KeptCall.held {s' : Traced} (hs : Reachable s) (hkept : KeptCall s s' key c e c')
    (hquiet : c.state.synchronized = false → (s.history key).taken = 0) (k : ℕ)
    (hk : Held (s.history key) c k) : Held (s.history key ++ [e]) c' k := by
  cases hsync : c.state.synchronized with
  | true => exact hk.step (Run.receiveInv hs hkept.found) (hkept.receive hsync)
  | false =>
    cases hkept.step with
    | halfOpen hopen => exact absurd hk (not_held_of_halfOpen hopen (hquiet hsync) k)
    | synced u hsynced =>
      simp [hsynced.synchronized] at hsync

theorem KeyStep.first (h : KeyStep listenPort key none e (some c)) :
    (∀ entry ∈ c.pending, entry.sacked = false) ∧
      ∀ segment ∈ e.emitted, segment.flags.syn = true := by
  cases h with
  | connect isn now =>
    constructor
    · intro entry hmem
      rw [List.mem_singleton.1 hmem]
      rfl
    · intro segment hmem
      have hsyn : segment = makeActiveSyn key (activeConnection isn) := by simpa using hmem
      rw [hsyn]
      rfl
  | accept segment options isn now =>
    constructor
    · intro entry hmem
      rw [List.mem_singleton.1 hmem]
      rfl
    · intro sent hmem
      have hsynAck : sent = makeSynAck key (passiveConnection segment options isn) := by
        simpa using hmem
      rw [hsynAck]
      rfl

namespace Duo

variable {key : TcpConnectionKey} {d d' : Duo} {a b : Connection}

theorem Run.located_passive (h : Duo.Run key d) (hbounded : d.Bounded key) (hlive : d.ended = false)
    (ha : d.active.table.find? key = some a) (hb : d.passive.table.find? key.peer = some b)
    (hsync : b.state.synchronized = true) :
    Located (a.localIsn + 1) (d.passive.history key.peer) b := by
  have hsession := h.inv hbounded hlive
  obtain ⟨hs, ht⟩ := h.reachable
  exact Link.located ht hb hsession.backward hsession.forward (Run.slices hs key) hbounded.active
    hsync ha

theorem Run.located_active (h : Duo.Run key d) (hbounded : d.Bounded key) (hlive : d.ended = false)
    (ha : d.active.table.find? key = some a) (hb : d.passive.table.find? key.peer = some b)
    (hsync : a.state.synchronized = true) :
    Located (b.localIsn + 1) (d.active.history key) a := by
  have hsession := h.inv hbounded hlive
  obtain ⟨hs, ht⟩ := h.reachable
  exact Link.located hs ha hsession.forward hsession.backward (Run.slices ht key.peer)
    hbounded.passive hsync hb

theorem Run.quiet_active (h : Duo.Run key d) (hbounded : d.Bounded key) (hlive : d.ended = false)
    (ha : d.active.table.find? key = some a) (hnot : a.state.synchronized = false) :
    (d.active.history key).taken = 0 := by
  have hquiet := (h.inv hbounded hlive).forward.quiet fun c hc => by
    rwa [← some.inj (ha.symm.trans hc)]
  rw [History.taken, hquiet.1, hquiet.2]
  rfl

theorem Run.quiet_passive (h : Duo.Run key d) (hbounded : d.Bounded key) (hlive : d.ended = false)
    (hb : d.passive.table.find? key.peer = some b) (hnot : b.state.synchronized = false) :
    (d.passive.history key.peer).taken = 0 := by
  have hquiet := (h.inv hbounded hlive).backward.quiet fun c hc => by
    rwa [← some.inj (hb.symm.trans hc)]
  rw [History.taken, hquiet.1, hquiet.2]
  rfl

/-- Both ends report the truth to each other. -/
def Truthful (key : TcpConnectionKey) (d : Duo) : Prop :=
  Reports (d.active.history key) (d.passive.history key.peer) (d.active.table.find? key)
      (d.passive.table.find? key.peer) ∧
    Reports (d.passive.history key.peer) (d.active.history key) (d.passive.table.find? key.peer)
      (d.active.table.find? key)

theorem Truthful.opens (hrun : Duo.Run key d) (hlive : d.ended = false)
    (hpassive : d'.passive = d.passive) (hfirst : FirstCall listenPort d.active d'.active key e) :
    d'.Truthful key := by
  have hnone := ((hrun.agreement hlive).unopened hfirst.absent).2
  unfold Truthful
  rw [hpassive, hnone]
  refine ⟨.of_unmarked (fun a ha => ?_) fun _ hsome => absurd hsome (by simp), .absent _ _ _⟩
  have hstep := hfirst.step
  rw [ha] at hstep
  exact hstep.first.1

theorem Truthful.accepts (hrun : Duo.Run key d) (hlive : d.ended = false) (h : d.Truthful key)
    (hactive : d'.active = d.active)
    (hfirst : FirstCall key.remotePort d.passive d'.passive key.peer e) : d'.Truthful key := by
  have hstep := hfirst.step
  have hhist := hfirst.history
  unfold Truthful at h ⊢
  rw [hfirst.absent] at h
  rw [hactive]
  refine ⟨.of_unmarked (fun a ha entry he => ?_) fun _ hsome segment hmem => ?_,
    .of_unmarked (fun b hb => ?_) fun _ hsome segment hmem => ?_⟩
  · -- A mark of the opener would name a listener.
    rw [← Bool.not_eq_true]
    intro hmark
    obtain ⟨b, hb, -⟩ := h.1.marks a ha entry he hmark
    cases hb
  · obtain ⟨b', hb'⟩ := isSome_iff_exists.1 hsome
    rw [hb'] at hstep hhist
    rw [hhist, extendHistory_new, History.emitted_singleton] at hmem
    exact hstep.first.2 segment hmem
  · rw [hb] at hstep
    exact hstep.first.1
  · obtain ⟨a, ha⟩ := isSome_iff_exists.1 hsome
    rcases (hrun.agreement hlive).opener a ha with ⟨-, hsyns⟩ | ⟨-, b, hb, -⟩
    · exact hsyns segment hmem
    · simp [hfirst.absent] at hb

theorem outOfOrder_of_halfOpen (hstep : ConnStep h c e c') (hnot : c'.state.synchronized = false) :
    c'.outOfOrder = [] := by
  obtain ⟨hopen, hview⟩ := hstep.halfOpen_state hnot
  exact (hopen.of_view hview).received.outOfOrder

theorem Run.truthful (h : Duo.Run key d) (hbounded : d.Bounded key) (hlive : d.ended = false) :
    d.Truthful key := by
  induction h with
  | start opener listener ha hb =>
    unfold Truthful
    rw [TcpConnectionTable.find?_empty ha, TcpConnectionTable.find?_empty hb]
    exact ⟨.absent _ _ _, .absent _ _ _⟩
  | step d d' hrun hbefore hstep ih =>
    have hrun' : Duo.Run key d' := .step d d' hrun hbefore hstep
    have hbounded₀ := hbounded.before hstep (hrun.unopened hbefore)
    have ih := ih hbounded₀ hbefore
    obtain ⟨hs, ht⟩ := hrun.reachable
    have hagreement := hrun.agreement hbefore
    cases hrun.moved hstep hlive with
    | quiet hha hhb hca hcb =>
      unfold Truthful at ih ⊢
      rwa [hha, hhb, hca, hcb]
    | opens listenPort e hpassive hfirst => exact .opens hrun hbefore hpassive hfirst
    | accepts e hactive hfirst => exact ih.accepts hrun hbefore hactive hfirst
    | active a e a' hpassive hkept hreceived =>
      have hheld := hkept.held hs (hrun.quiet_active hbounded₀ hbefore hkept.found)
      unfold Truthful at ih ⊢
      rw [hkept.found] at ih
      rw [hpassive, hkept.history, hkept.found']
      refine ⟨ih.1.speaks hkept.step hkept.call hbounded₀.active hreceived hagreement.unaccepted,
        ih.2.listens hkept.step hkept.call hheld ?_ (outOfOrder_of_halfOpen hkept.step)⟩
      intro b hb hsync
      rw [← hpassive] at hb
      rw [← hkept.history]
      exact hrun'.located_active hbounded hlive hkept.found' hb hsync
    | passive b e b' hactive hkept hreceived =>
      have hheld := hkept.held ht (hrun.quiet_passive hbounded₀ hbefore hkept.found)
      unfold Truthful at ih ⊢
      rw [hkept.found] at ih
      rw [hactive, hkept.history, hkept.found']
      refine ⟨ih.1.listens hkept.step hkept.call hheld ?_ (outOfOrder_of_halfOpen hkept.step),
        ih.2.speaks hkept.step hkept.call hbounded₀.passive hreceived
          fun hnone => (hagreement.unopened hnone).1⟩
      intro a ha hsync
      rw [← hactive] at ha
      rw [← hkept.history]
      exact hrun'.located_passive hbounded hlive ha hkept.found' hsync

end Duo

/-! ## The guarantee -/

/-- The connection has the byte numbered `x`: below `rcvNxt`, or in an out-of-order fragment. -/
def Connection.HasReceived (c : Connection) (x : SeqNum) : Prop :=
  sequenceGreater c.rcvNxt x = true ∨
    ∃ f ∈ c.outOfOrder, ∃ i < f.payload.length, x = f.sequenceStart + BitVec.ofNat 32 i

theorem Located.hasReceived {first : SeqNum} (hloc : Located first h c) (hheld : Held h c k) :
    c.HasReceived (pos first k) := by
  rcases hheld with hlt | ⟨o, rfl, d, hd, hlo, hhi⟩
  · left
    have := hloc.taken
    rwa [hloc.rcvNxt, sequenceGreater_pos first (by omega) (by omega), decide_eq_true_eq]
  · obtain ⟨f, hf, rfl⟩ := List.mem_map.1 hd
    have hstart : f.sequenceStart = pos c.rcvNxt (f.toChunk c.rcvNxt).start :=
      (pos_ahead c.rcvNxt f.sequenceStart).symm
    have hstop : (f.toChunk c.rcvNxt).stop = (f.toChunk c.rcvNxt).start + f.payload.length := rfl
    dsimp only [Chunk.range] at hlo hhi
    refine .inr ⟨f, hf, o - (f.toChunk c.rcvNxt).start, by omega, ?_⟩
    rw [hstart, pos_add_ofNat, hloc.rcvNxt, pos_pos]
    congr 1
    rw [← hloc.rcvNxt]
    omega

/-- Every byte of every entry marked sacked has been received by the other end. -/
def SackTruthful (sender receiver : Connection) : Prop :=
  ∀ entry ∈ sender.pending, entry.sacked = true → ∀ i < entry.payload.length,
    receiver.HasReceived (entry.sequenceStart + BitVec.ofNat 32 i)

theorem Reports.sackTruthful {hx hy : History} {a b : Connection}
    (h : Reports hx hy (some a) (some b))
    (hloc : b.state.synchronized = true → Located (a.localIsn + 1) hy b)
    (hopen : b.state.synchronized = false → ∀ k, ¬ Held hy b k) : SackTruthful a b := by
  intro entry hentry hmark i hi
  obtain ⟨_, ⟨rfl⟩, hall⟩ := h.marks a rfl entry hentry hmark
  obtain ⟨k, hk, hheld⟩ := hall _ ⟨i, hi, rfl⟩
  change entry.sequenceStart + BitVec.ofNat 32 i = _ at hk
  rw [hk]
  cases hsync : b.state.synchronized with
  | true => exact (hloc hsync).hasReceived hheld
  | false => exact absurd hheld (hopen hsync k)

/-- **SACK marks are truthful.** Whenever both ends have the connection, every byte of an entry that
    either of them has marked sacked is held by the other, and an end whose peer does not have the
    connection yet has no mark at all. -/
theorem sackMarks_truthful {key : TcpConnectionKey} {d : Duo} (hrun : Duo.Run key d)
    (hbounded : d.Bounded key) :
    (∀ a b, d.active.table.find? key = some a → d.passive.table.find? key.peer = some b →
      SackTruthful a b ∧ SackTruthful b a) ∧
    (d.ended = false → d.passive.table.find? key.peer = none →
      ∀ a, d.active.table.find? key = some a → ∀ entry ∈ a.pending, entry.sacked = false) := by
  cases hended : d.ended with
  | true =>
      refine ⟨fun a b ha hb => ?_, nofun⟩
      rcases hrun.ended_absent hended with hgone | hgone
      · simp [hgone] at ha
      · simp [hgone] at hb
  | false =>
      obtain ⟨hforward, hbackward⟩ := hrun.truthful hbounded hended
      constructor
      · intro a b ha hb
        rw [ha, hb] at hforward hbackward
        refine ⟨hforward.sackTruthful (hrun.located_passive hbounded hended ha hb) ?_,
          hbackward.sackTruthful (hrun.located_active hbounded hended ha hb) ?_⟩
        · intro hnot
          exact not_held_of_halfOpen (Run.halfOpen hrun.reachable.2 hb hnot)
            (hrun.quiet_passive hbounded hended hb hnot)
        · intro hnot
          exact not_held_of_halfOpen (Run.halfOpen hrun.reachable.1 ha hnot)
            (hrun.quiet_active hbounded hended ha hnot)
      · intro _ hnone a ha entry hentry
        rw [← Bool.not_eq_true]
        intro hmark
        obtain ⟨b, hb, -⟩ := hforward.marks a ha entry hentry hmark
        simp [hnone] at hb

/-- The second of two bytes arrives first, and the report of it comes back: the opener has marked the
    entry of byte 1002, and the listener holds that byte. -/
theorem sackMarks_truthful_example : ∃ d a b, Duo.Run exampleKey d ∧ d.Bounded exampleKey ∧
      d.active.table.find? exampleKey = some a ∧ d.passive.table.find? exampleKey.peer = some b ∧
      (a.pending.map fun e => (e.sequenceStart, e.sacked)) = [(1001, false), (1002, true)] ∧
      SackTruthful a b := by
  have hreport : (performDuo exampleKey (exampleGap ++ [.toActive 1]) exampleConnected
      exampleAccepted).map (fun p => (p.1.1.accepted, p.2.1.accepted,
        p.1.2.pending.map fun e => (e.sequenceStart, e.sacked))) =
      some ([1, 2], [], [(1001, false), (1002, true)]) := by decide +kernel
  obtain ⟨d, a, b, hrun, -, ha, hb, hval⟩ := exampleDuo_at hreport
  simp only [Prod.mk.injEq] at hval
  obtain ⟨haccepted, hanswered, hmarks⟩ := hval
  have hbounded : d.Bounded exampleKey := ⟨by rw [haccepted]; decide, by rw [hanswered]; decide⟩
  exact ⟨d, a, b, hrun, hbounded, ha, hb, hmarks,
    ((sackMarks_truthful hrun hbounded).1 a b ha hb).1⟩

end Wirestack
