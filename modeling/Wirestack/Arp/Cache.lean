import Wirestack.Tcp.Table
import Wirestack.Wire.Formats

set_option autoImplicit false

/-! # The ARP cache (`arp_cache.hpp`, `arp_cache.cpp`)

A bounded `std::map` from addresses to entries. An entry is resolved, incomplete while requests are out
for it, or failed. Every operation first expires what is too old, and a new address takes the place of
the entry that was updated longest ago if there is no room; entries that are still incomplete are
neither expired nor replaced.

What an operation does is said once for the entry of a single address (`EntryStep`): everything about
runs of the cache is derived from that. -/

namespace Wirestack

open Option

def kArpRetryInterval : Duration := milliseconds 1000
def kArpEntryLifetime : Duration := milliseconds 300000
def kArpCacheCapacity : ℕ := 256
def kArpMaxTransmissions : ℕ := 3

/-! ## Entries -/

inductive ArpNeighborState where
  | resolved
  | incomplete
  | failed
  deriving DecidableEq, Repr

structure ArpEntry where
  state : ArpNeighborState
  mac : Option MacAddress
  updatedAt : TimePoint
  nextDeadline : Option TimePoint
  transmitCount : ℕ := 0
  deriving DecidableEq, Repr

/-- What `insert` puts into the cache. -/
def ArpEntry.resolvedAt (mac : MacAddress) (now : TimePoint) : ArpEntry :=
  { state := .resolved, mac := some mac, updatedAt := now, nextDeadline := none, transmitCount := 0 }

/-- What `beginResolution` puts into the cache. -/
def ArpEntry.pendingAt (now : TimePoint) : ArpEntry :=
  { state := .incomplete, mac := none, updatedAt := now,
    nextDeadline := some (now + kArpRetryInterval), transmitCount := 1 }

/-- Whether `expire` removes the entry. -/
def ArpEntry.expired (entry : ArpEntry) (lifetime : Duration) (now : TimePoint) : Bool :=
  entry.state != .incomplete && decide (now - entry.updatedAt ≥ lifetime)

/-- What `poll` reports about an entry. -/
inductive ArpPollOutcome where
  | idle
  | request
  | failed
  deriving DecidableEq, Repr

/-- The body of the loop in `poll`. -/
def ArpEntry.poll (entry : ArpEntry) (now : TimePoint) : ArpEntry × ArpPollOutcome :=
  if entry.state != .incomplete then (entry, .idle)
  else
    match entry.nextDeadline with
    | none => (entry, .idle)
    | some deadline =>
      if now < deadline then (entry, .idle)
      else if entry.transmitCount ≥ kArpMaxTransmissions then
        ({ entry with state := .failed, updatedAt := now, nextDeadline := none }, .failed)
      else
        ({ entry with
            transmitCount := entry.transmitCount + 1
            nextDeadline := some (now + kArpRetryInterval) }, .request)

/-! ## The cache -/

structure ArpCache where
  capacity : ℕ := kArpCacheCapacity
  entryLifetime : Duration := kArpEntryLifetime
  entries : Std.ExtTreeMap Ipv4Address ArpEntry := ∅

/-- The body of the loop in `makeRoom`. -/
def olderEntry (oldest : Option (Ipv4Address × ArpEntry)) (item : Ipv4Address × ArpEntry) :
    Option (Ipv4Address × ArpEntry) :=
  if item.2.state == .incomplete then oldest
  else
    match oldest with
    | none => some item
    | some best => if item.2.updatedAt < best.2.updatedAt then some item else oldest

/-- The entry that was updated longest ago, among those that may be replaced. -/
def ArpCache.oldest (cache : ArpCache) : Option (Ipv4Address × ArpEntry) :=
  cache.entries.toList.foldl olderEntry none

def ArpCache.makeRoom (cache : ArpCache) : ArpCache × Bool :=
  if cache.entries.size < cache.capacity then (cache, true)
  else
    match cache.oldest with
    | none => (cache, false)
    | some (ip, _) => ({ cache with entries := cache.entries.erase ip }, true)

def ArpCache.expire (cache : ArpCache) (now : TimePoint) : ArpCache :=
  { cache with
    entries := cache.entries.filter fun _ entry => !entry.expired cache.entryLifetime now }

def ArpCache.insert (cache : ArpCache) (ip : Ipv4Address) (mac : MacAddress) (now : TimePoint) :
    ArpCache :=
  let cache := cache.expire now
  if !cache.entries.contains ip then
    let (cache, room) := cache.makeRoom
    if !room then cache
    else { cache with entries := cache.entries.insert ip (.resolvedAt mac now) }
  else { cache with entries := cache.entries.insert ip (.resolvedAt mac now) }

def ArpCache.lookup (cache : ArpCache) (ip : Ipv4Address) (now : TimePoint) :
    ArpCache × Option MacAddress :=
  let cache := cache.expire now
  match cache.entries[ip]? with
  | none => (cache, none)
  | some entry => if entry.state != .resolved then (cache, none) else (cache, entry.mac)

/-- True only when the caller should send the initial request. -/
def ArpCache.beginResolution (cache : ArpCache) (ip : Ipv4Address) (now : TimePoint) :
    ArpCache × Bool :=
  let cache := cache.expire now
  if cache.entries.contains ip then (cache, false)
  else
    let (cache, room) := cache.makeRoom
    if !room then (cache, false)
    else ({ cache with entries := cache.entries.insert ip (.pendingAt now) }, true)

structure ArpPollResult where
  requests : List Ipv4Address := []
  failed : List Ipv4Address := []
  deriving DecidableEq, Repr

/-- The addresses that `poll` reports this outcome for, in the order of the map. -/
def ArpCache.polled (cache : ArpCache) (now : TimePoint) (outcome : ArpPollOutcome) :
    List Ipv4Address :=
  (cache.entries.filter fun _ entry => (entry.poll now).2 == outcome).keys

def ArpCache.poll (cache : ArpCache) (now : TimePoint) : ArpCache × ArpPollResult :=
  let cache := cache.expire now
  ({ cache with entries := cache.entries.map fun _ entry => (entry.poll now).1 },
    { requests := cache.polled now .request, failed := cache.polled now .failed })

/-- When something is next to be done for an entry. -/
def ArpEntry.deadline (entry : ArpEntry) (lifetime : Duration) : Option TimePoint :=
  if entry.state != .incomplete then some (entry.updatedAt + lifetime) else entry.nextDeadline

/-- The body of the loop in `nextDeadline`. -/
def earlierDeadline (lifetime : Duration) (deadline : Option TimePoint)
    (item : Ipv4Address × ArpEntry) : Option TimePoint :=
  match item.2.deadline lifetime with
  | none => deadline
  | some candidate =>
    match deadline with
    | none => some candidate
    | some earliest => if candidate < earliest then some candidate else deadline

def ArpCache.nextDeadline (cache : ArpCache) : Option TimePoint :=
  cache.entries.toList.foldl (earlierDeadline cache.entryLifetime) none

def ArpCache.stateOf (cache : ArpCache) (ip : Ipv4Address) (now : TimePoint) :
    ArpCache × Option ArpNeighborState :=
  let cache := cache.expire now
  (cache, cache.entries[ip]?.map ArpEntry.state)

/-! ## Runs -/

inductive ArpCall where
  | insert (ip : Ipv4Address) (mac : MacAddress)
  | lookup (ip : Ipv4Address)
  | beginResolution (ip : Ipv4Address)
  | poll
  | stateOf (ip : Ipv4Address)
  deriving DecidableEq, Repr

inductive ArpReply where
  | done
  | mac (mac : Option MacAddress)
  | started (sendRequest : Bool)
  | polled (result : ArpPollResult)
  | state (state : Option ArpNeighborState)
  deriving DecidableEq, Repr

def ArpCache.step (cache : ArpCache) (now : TimePoint) : ArpCall → ArpCache × ArpReply
  | .insert ip mac => (cache.insert ip mac now, .done)
  | .lookup ip => ((cache.lookup ip now).1, .mac (cache.lookup ip now).2)
  | .beginResolution ip =>
    ((cache.beginResolution ip now).1, .started (cache.beginResolution ip now).2)
  | .poll => ((cache.poll now).1, .polled (cache.poll now).2)
  | .stateOf ip => ((cache.stateOf ip now).1, .state (cache.stateOf ip now).2)

structure ArpEvent where
  now : TimePoint
  call : ArpCall
  reply : ArpReply
  deriving DecidableEq, Repr

/-- The calls in turn, each at its time, and what came of them. -/
def ArpCache.run (cache : ArpCache) : List (TimePoint × ArpCall) → ArpCache × List ArpEvent
  | [] => (cache, [])
  | (now, call) :: calls =>
    let next := cache.step now call
    let rest := next.1.run calls
    (rest.1, { now := now, call := call, reply := next.2 } :: rest.2)

theorem ArpCache.run_append (cache : ArpCache) (calls more : List (TimePoint × ArpCall)) :
    (cache.run (calls ++ more)).1 = ((cache.run calls).1.run more).1 := by
  induction calls generalizing cache with
  | nil => rfl
  | cons call calls ih => exact ih (cache.step call.1 call.2).1

theorem ArpCache.run_induction {motive : ArpCache → Prop} {cache : ArpCache} (hstart : motive cache)
    (hstep : ∀ cache now call, motive cache → motive (cache.step now call).1)
    (calls : List (TimePoint × ArpCall)) : motive (cache.run calls).1 := by
  induction calls generalizing cache with
  | nil => exact hstart
  | cons call calls ih => exact ih (hstep cache call.1 call.2 hstart)

/-! ## What an operation does to one entry -/

/-- The address that a call may add to the cache. -/
def ArpCall.adds : ArpCall → Option Ipv4Address
  | .insert ip _ => some ip
  | .beginResolution ip => some ip
  | _ => none

/-- The call would add an address, and there is no room for it. -/
def ArpCache.Full (cache : ArpCache) (now : TimePoint) (call : ArpCall) : Prop :=
  ∃ ip, call.adds = some ip ∧ (cache.expire now).entries[ip]? = none ∧
    cache.capacity ≤ (cache.expire now).entries.size

/-- What becomes of the entry of one address in a call. -/
inductive EntryStep (cache : ArpCache) (now : TimePoint) (call : ArpCall) (reply : ArpReply)
    (ip : Ipv4Address) : Option ArpEntry → Option ArpEntry → Prop where
  /-- It stays, unless it is what the call is about. -/
  | keep {before : Option ArpEntry}
      (fresh : ∀ entry, before = some entry → entry.expired cache.entryLifetime now = false)
      (notInserted : ∀ mac, call = .insert ip mac → before = none ∧ cache.Full now call)
      (notPolled : call = .poll → before = none) : EntryStep cache now call reply ip before before
  /-- It expires or is replaced. -/
  | drop {entry : ArpEntry} (replaceable : entry.state ≠ .incomplete)
      (reason : entry.expired cache.entryLifetime now = true ∨ cache.Full now call)
      (notInserted : ∀ mac, call = .insert ip mac → cache.Full now call) :
      EntryStep cache now call reply ip (some entry) none
  | resolve {before : Option ArpEntry} {mac : MacAddress} (called : call = .insert ip mac) :
      EntryStep cache now call reply ip before (some (.resolvedAt mac now))
  | start {before : Option ArpEntry} (called : call = .beginResolution ip)
      (replied : reply = .started true)
      (gone : ∀ entry, before = some entry → entry.expired cache.entryLifetime now = true) :
      EntryStep cache now call reply ip before (some (.pendingAt now))
  | poll {entry : ArpEntry} (called : call = .poll)
      (fresh : entry.expired cache.entryLifetime now = false) :
      EntryStep cache now call reply ip (some entry) (some (entry.poll now).1)

theorem ArpEntry.state_of_expired {entry : ArpEntry} {lifetime : Duration} {now : TimePoint}
    (h : entry.expired lifetime now = true) :
    entry.state ≠ .incomplete ∧ lifetime ≤ now - entry.updatedAt := by
  rwa [ArpEntry.expired, Bool.and_eq_true, bne_iff_ne, decide_eq_true_eq] at h

section

variable {cache : ArpCache} {now : TimePoint} {call : ArpCall} {reply : ArpReply}
  {ip other : Ipv4Address} {entry : ArpEntry}

theorem ArpCache.getElem?_expire : (cache.expire now).entries[ip]? =
    cache.entries[ip]?.filter fun entry => !entry.expired cache.entryLifetime now :=
  Std.ExtTreeMap.getElem?_filter'

theorem ArpCache.getElem?_expire_eq_some : (cache.expire now).entries[ip]? = some entry ↔
    cache.entries[ip]? = some entry ∧ entry.expired cache.entryLifetime now = false := by
  rw [ArpCache.getElem?_expire, filter_eq_some_iff, Bool.not_eq_true']

theorem ArpCache.getElem?_expire_eq_none : (cache.expire now).entries[ip]? = none ↔
    ∀ entry, cache.entries[ip]? = some entry → entry.expired cache.entryLifetime now = true := by
  rw [ArpCache.getElem?_expire, filter_eq_none_iff]
  simp only [Bool.not_eq_true', Bool.not_eq_false]

theorem ArpCache.getElem?_poll : (cache.poll now).1.entries[ip]? =
    (cache.expire now).entries[ip]?.map fun entry => (entry.poll now).1 :=
  Std.ExtTreeMap.getElem?_map

theorem EntryStep.gone (h : (cache.expire now).entries[ip]? = none)
    (hinsert : ∀ mac, call = .insert ip mac → cache.Full now call) :
    EntryStep cache now call reply ip cache.entries[ip]? none := by
  have hgone := ArpCache.getElem?_expire_eq_none.1 h
  cases hbefore : cache.entries[ip]? with
  | none => exact .keep (by rintro _ ⟨⟩) (fun mac hcall => ⟨rfl, hinsert mac hcall⟩) fun _ => rfl
  | some entry =>
    have hexpired := hgone entry hbefore
    exact .drop (ArpEntry.state_of_expired hexpired).1 (.inl hexpired) hinsert

theorem EntryStep.expire (hinsert : ∀ mac, call ≠ .insert ip mac) (hpoll : call ≠ .poll) :
    EntryStep cache now call reply ip cache.entries[ip]? (cache.expire now).entries[ip]? := by
  cases hentry : (cache.expire now).entries[ip]? with
  | none => exact .gone hentry fun mac hcall => absurd hcall (hinsert mac)
  | some entry =>
    obtain ⟨hbefore, hfresh⟩ := ArpCache.getElem?_expire_eq_some.1 hentry
    rw [hbefore]
    refine .keep ?_ (fun mac hcall => absurd hcall (hinsert mac)) fun hcall => absurd hcall hpoll
    rintro _ ⟨⟩
    exact hfresh

/-! ### Room -/

theorem exists_of_foldl_eq_some {α β : Type} {keep : Option β → α → Option β} {found : α → β → Prop}
    (hkeep : ∀ best item result, keep best item = some result →
      best = some result ∨ found item result)
    {items : List α} {best : Option β} {result : β} (h : items.foldl keep best = some result) :
    best = some result ∨ ∃ item ∈ items, found item result := by
  induction items generalizing best with
  | nil => exact .inl h
  | cons item items ih =>
    rcases ih h with hbest | ⟨later, hmem, hfound⟩
    · rcases hkeep best item result hbest with hbest | hfound
      · exact .inl hbest
      · exact .inr ⟨item, List.mem_cons_self, hfound⟩
    · exact .inr ⟨later, List.mem_cons_of_mem item hmem, hfound⟩

theorem olderEntry_eq_some (oldest : Option (Ipv4Address × ArpEntry))
    (item result : Ipv4Address × ArpEntry) (h : olderEntry oldest item = some result) :
    oldest = some result ∨ item = result ∧ item.2.state ≠ .incomplete := by
  unfold olderEntry at h
  by_cases hstate : (item.2.state == .incomplete) = true
  · rw [if_pos hstate] at h
    exact .inl h
  · rw [if_neg hstate] at h
    rw [beq_iff_eq] at hstate
    cases oldest with
    | none => exact .inr ⟨some.inj h, hstate⟩
    | some best =>
      dsimp only at h
      split_ifs at h
      · exact .inr ⟨some.inj h, hstate⟩
      · exact .inl h

theorem ArpCache.getElem?_oldest (h : cache.oldest = some (ip, entry)) :
    cache.entries[ip]? = some entry ∧ entry.state ≠ .incomplete := by
  obtain hnone | ⟨item, hmem, rfl, hstate⟩ := exists_of_foldl_eq_some olderEntry_eq_some h
  · cases hnone
  · exact ⟨Std.ExtTreeMap.mem_toList_iff_getElem?_eq_some.1 hmem, hstate⟩

theorem ArpCache.makeRoom_cases (cache : ArpCache) :
    (cache.entries.size < cache.capacity ∧ cache.makeRoom = (cache, true)) ∨
    (cache.capacity ≤ cache.entries.size ∧ (cache.makeRoom = (cache, false) ∨
        ∃ ip entry, cache.entries[ip]? = some entry ∧ entry.state ≠ .incomplete ∧
          cache.makeRoom = ({ cache with entries := cache.entries.erase ip }, true))) := by
  unfold ArpCache.makeRoom
  split_ifs with hroom
  · exact .inl ⟨hroom, rfl⟩
  · refine .inr ⟨not_lt.1 hroom, ?_⟩
    cases holdest : cache.oldest with
    | none => exact .inl rfl
    | some item =>
      obtain ⟨hentry, hstate⟩ := ArpCache.getElem?_oldest holdest
      exact .inr ⟨item.1, item.2, hentry, hstate, rfl⟩

theorem getElem?_insert_of_ne {entries : Std.ExtTreeMap Ipv4Address ArpEntry} (hne : ip ≠ other)
    (added : ArpEntry) : (entries.insert other added)[ip]? = entries[ip]? := by
  rw [Std.ExtTreeMap.getElem?_insert, if_neg fun h => hne (Std.LawfulEqOrd.eq_of_compare h).symm]

theorem ArpCache.getElem?_makeRoom (hne : ip ≠ other) (cache : ArpCache) (added : ArpEntry) :
    (cache.makeRoom.1.entries.insert other added)[ip]? = cache.entries[ip]? ∨
      cache.capacity ≤ cache.entries.size ∧ ∃ entry, cache.entries[ip]? = some entry ∧
        entry.state ≠ .incomplete ∧ (cache.makeRoom.1.entries.insert other added)[ip]? = none := by
  rw [getElem?_insert_of_ne hne]
  obtain ⟨-, hroom⟩ | ⟨hfull, hroom | ⟨oldest, entry, hentry, hstate, hroom⟩⟩ :=
    cache.makeRoom_cases
  · rw [hroom]
    exact .inl rfl
  · rw [hroom]
    exact .inl rfl
  · rw [hroom]
    by_cases hsame : oldest = ip
    · subst hsame
      exact .inr ⟨hfull, entry, hentry, hstate, Std.ExtTreeMap.getElem?_erase_self⟩
    · refine .inl ?_
      show (cache.entries.erase oldest)[ip]? = _
      rw [Std.ExtTreeMap.getElem?_erase, if_neg (mt Std.LawfulEqOrd.eq_of_compare hsame)]

theorem EntryStep.beside (hne : ip ≠ other) (hadds : call.adds = some other)
    (habsent : (cache.expire now).entries[other]? = none) (added : ArpEntry) :
    EntryStep cache now call reply ip cache.entries[ip]?
      ((cache.expire now).makeRoom.1.entries.insert other added)[ip]? := by
  have hinsert : ∀ mac, call ≠ .insert ip mac := by
    rintro mac rfl
    exact hne (some.inj hadds)
  have hpoll : call ≠ .poll := by
    rintro rfl
    cases hadds
  obtain hsame | ⟨hfull, entry, hentry, hstate, hgone⟩ :=
    (cache.expire now).getElem?_makeRoom hne added
  · rw [hsame]
    exact .expire hinsert hpoll
  · rw [hgone, (ArpCache.getElem?_expire_eq_some.1 hentry).1]
    exact .drop hstate (.inr ⟨other, hadds, habsent, hfull⟩)
      fun mac hcall => absurd hcall (hinsert mac)

/-! ### The operations -/

theorem ArpCache.contains_expire_eq_false :
    (!(cache.expire now).entries.contains ip) = true ↔ (cache.expire now).entries[ip]? = none := by
  rw [Std.ExtTreeMap.contains_eq_isSome_getElem?, Bool.not_eq_true', isSome_eq_false_iff,
    isNone_iff_eq_none]

theorem ArpCache.makeRoom_of_false (h : cache.makeRoom.2 = false) :
    cache.makeRoom.1 = cache ∧ cache.capacity ≤ cache.entries.size := by
  obtain ⟨-, hroom⟩ | ⟨hfull, hroom | ⟨oldest, entry, -, -, hroom⟩⟩ := cache.makeRoom_cases
  · simp [hroom] at h
  · rw [hroom]
    exact ⟨rfl, hfull⟩
  · simp [hroom] at h

section

variable (cache : ArpCache) (now : TimePoint) (call : ArpCall) (other ip : Ipv4Address)
  (mac : MacAddress) (reply : ArpReply)

theorem ArpCache.insert_entry : EntryStep cache now (.insert other mac) reply ip
      cache.entries[ip]? (cache.insert other mac now).entries[ip]? := by
  have hothers : ip ≠ other → ∀ mac', ArpCall.insert other mac ≠ .insert ip mac' := by
    rintro hne mac' ⟨⟩
    exact hne rfl
  unfold ArpCache.insert
  dsimp only
  by_cases habsent : (!(cache.expire now).entries.contains other) = true
  · rw [if_pos habsent]
    rw [ArpCache.contains_expire_eq_false] at habsent
    by_cases hroom : (cache.expire now).makeRoom.2 = true
    · rw [hroom, if_neg (by decide)]
      by_cases hip : ip = other
      · subst hip
        rw [Std.ExtTreeMap.getElem?_insert_self]
        exact .resolve rfl
      · exact .beside hip rfl habsent _
    · rw [Bool.not_eq_true] at hroom
      obtain ⟨hsame, hfull⟩ := ArpCache.makeRoom_of_false hroom
      rw [hroom, if_pos (by decide), hsame]
      by_cases hip : ip = other
      · subst hip
        rw [habsent]
        exact .gone habsent fun _ _ => ⟨ip, rfl, habsent, hfull⟩
      · exact .expire (hothers hip) (by simp)
  · rw [if_neg habsent]
    by_cases hip : ip = other
    · subst hip
      rw [Std.ExtTreeMap.getElem?_insert_self]
      exact .resolve rfl
    · rw [getElem?_insert_of_ne hip]
      exact .expire (hothers hip) (by simp)

theorem ArpCache.beginResolution_entry : EntryStep cache now (.beginResolution other)
      (.started (cache.beginResolution other now).2) ip cache.entries[ip]?
      (cache.beginResolution other now).1.entries[ip]? := by
  unfold ArpCache.beginResolution
  dsimp only
  by_cases hpresent : (cache.expire now).entries.contains other = true
  · rw [if_pos hpresent]
    exact .expire (by simp) (by simp)
  · rw [if_neg hpresent]
    have habsent : (cache.expire now).entries[other]? = none := by
      rw [← ArpCache.contains_expire_eq_false, Bool.not_eq_true']
      exact Bool.eq_false_of_not_eq_true hpresent
    by_cases hroom : (cache.expire now).makeRoom.2 = true
    · rw [hroom, if_neg (by decide)]
      by_cases hip : ip = other
      · subst hip
        rw [Std.ExtTreeMap.getElem?_insert_self]
        exact .start rfl rfl (ArpCache.getElem?_expire_eq_none.1 habsent)
      · exact .beside hip rfl habsent _
    · rw [Bool.not_eq_true] at hroom
      rw [hroom, if_pos (by decide), (ArpCache.makeRoom_of_false hroom).1]
      exact .expire (by simp) (by simp)

theorem ArpCache.poll_entry : EntryStep cache now .poll reply ip cache.entries[ip]?
      (cache.poll now).1.entries[ip]? := by
  rw [ArpCache.getElem?_poll]
  cases hentry : (cache.expire now).entries[ip]? with
  | none => exact .gone hentry (by rintro _ ⟨⟩)
  | some entry =>
    obtain ⟨hbefore, hfresh⟩ := ArpCache.getElem?_expire_eq_some.1 hentry
    rw [hbefore]
    exact .poll rfl hfresh

theorem ArpCache.lookup_fst (now : TimePoint) : (cache.lookup ip now).1 = cache.expire now := by
  unfold ArpCache.lookup
  dsimp only
  split
  · rfl
  · split_ifs
    · rfl
    · rfl

theorem ArpCache.step_entry : EntryStep cache now call (cache.step now call).2 ip cache.entries[ip]?
      (cache.step now call).1.entries[ip]? := by
  cases call with
  | insert other mac => exact cache.insert_entry now other ip mac _
  | lookup other =>
    show EntryStep cache now _ _ ip _ (cache.lookup other now).1.entries[ip]?
    rw [ArpCache.lookup_fst]
    exact .expire (by simp) (by simp)
  | beginResolution other => exact cache.beginResolution_entry now other ip
  | poll => exact cache.poll_entry now ip _
  | stateOf other => exact .expire (by simp) (by simp)

end

end

end Wirestack
