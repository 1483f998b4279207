import Wirestack.Arp.Cache

set_option autoImplicit false

/-! # Resolutions

In every run the cache stays within its capacity, and its entries are well formed. A resolution that
was started is left alone by expiry and replacement: it ends when the address is inserted, or when it
is polled for the last time and reported as failed. Until then its transmit count is one more than the
number of retries that were asked for (`Pursued`). -/

namespace Wirestack

open Option

variable {entry : ArpEntry} {deadline : TimePoint}

/-! ## Well-formed caches -/

structure ArpEntry.WellFormed (entry : ArpEntry) : Prop where
  resolved : entry.state = .resolved → entry.mac.isSome = true
  incomplete : entry.state = .incomplete → entry.nextDeadline.isSome = true ∧
    1 ≤ entry.transmitCount ∧ entry.transmitCount ≤ kArpMaxTransmissions

structure ArpCache.WellFormed (cache : ArpCache) : Prop where
  bounded : cache.entries.size ≤ cache.capacity
  entries : ∀ {ip : Ipv4Address} {entry : ArpEntry}, cache.entries[ip]? = some entry →
    entry.WellFormed

theorem ArpEntry.poll_cases (entry : ArpEntry) (now : TimePoint) : entry.poll now = (entry, .idle) ∧
        (entry.state = .incomplete → ∀ deadline, entry.nextDeadline = some deadline → now < deadline) ∨
      entry.state = .incomplete ∧ (kArpMaxTransmissions ≤ entry.transmitCount ∧ entry.poll now =
            ({ entry with state := .failed, updatedAt := now, nextDeadline := none }, .failed) ∨
          entry.transmitCount < kArpMaxTransmissions ∧ entry.poll now = ({ entry with
                transmitCount := entry.transmitCount + 1
                nextDeadline := some (now + kArpRetryInterval) }, .request)) := by
  unfold ArpEntry.poll
  by_cases hstate : entry.state = .incomplete
  · rw [if_neg (by rw [hstate]; decide)]
    cases hdeadline : entry.nextDeadline with
    | none => exact .inl ⟨rfl, by rintro - deadline ⟨⟩⟩
    | some deadline =>
      dsimp only
      by_cases hearly : now < deadline
      · rw [if_pos hearly]
        refine .inl ⟨rfl, ?_⟩
        rintro - _ ⟨⟩
        exact hearly
      · rw [if_neg hearly]
        refine .inr ⟨hstate, ?_⟩
        split_ifs with hlast
        · exact .inl ⟨hlast, rfl⟩
        · exact .inr ⟨not_le.1 hlast, rfl⟩
  · rw [if_pos (bne_iff_ne.2 hstate)]
    exact .inl ⟨rfl, fun h => absurd h hstate⟩

theorem ArpEntry.WellFormed.poll (h : entry.WellFormed) (now : TimePoint) :
    (entry.poll now).1.WellFormed := by
  obtain ⟨hpoll, -⟩ | ⟨hstate, ⟨hlast, hpoll⟩ | ⟨hcount, hpoll⟩⟩ := entry.poll_cases now
  · rwa [hpoll]
  · rw [hpoll]
    exact ⟨by rintro ⟨⟩, by rintro ⟨⟩⟩
  · rw [hpoll]
    refine ⟨fun hresolved => ?_, fun _ => ⟨rfl, Nat.le_add_left _ _, hcount⟩⟩
    simp [hstate] at hresolved

section

variable {cache : ArpCache} {now : TimePoint} {call : ArpCall} {reply : ArpReply}
  {ip : Ipv4Address} {before after : Option ArpEntry}

theorem EntryStep.wellFormed (h : EntryStep cache now call reply ip before after)
    (hbefore : ∀ entry, before = some entry → entry.WellFormed) :
    ∀ entry, after = some entry → entry.WellFormed := by
  intro entry hentry
  cases h with
  | keep => exact hbefore entry hentry
  | drop => cases hentry
  | resolve =>
    cases hentry
    exact ⟨fun _ => rfl, by rintro ⟨⟩⟩
  | start =>
    cases hentry
    exact ⟨by rintro ⟨⟩, fun _ => ⟨rfl, le_rfl, show 1 ≤ 3 by decide⟩⟩
  | poll =>
    cases hentry
    exact (hbefore _ rfl).poll now

/-! ## Capacity -/

theorem ArpCache.makeRoom_config (cache : ArpCache) : cache.makeRoom.1.capacity = cache.capacity ∧
      cache.makeRoom.1.entryLifetime = cache.entryLifetime := by
  obtain ⟨-, hroom⟩ | ⟨-, hroom | ⟨oldest, entry, -, -, hroom⟩⟩ := cache.makeRoom_cases
  · rw [hroom]
    exact ⟨rfl, rfl⟩
  · rw [hroom]
    exact ⟨rfl, rfl⟩
  · rw [hroom]
    exact ⟨rfl, rfl⟩

theorem ArpCache.step_config (cache : ArpCache) (now : TimePoint) (call : ArpCall) :
    (cache.step now call).1.capacity = cache.capacity ∧
      (cache.step now call).1.entryLifetime = cache.entryLifetime := by
  cases call with
  | insert ip mac =>
    show (cache.insert ip mac now).capacity = _ ∧ (cache.insert ip mac now).entryLifetime = _
    unfold ArpCache.insert
    dsimp only
    split_ifs
    · exact (cache.expire now).makeRoom_config
    · exact (cache.expire now).makeRoom_config
    · exact ⟨rfl, rfl⟩
  | lookup ip =>
    show (cache.lookup ip now).1.capacity = _ ∧ (cache.lookup ip now).1.entryLifetime = _
    rw [ArpCache.lookup_fst]
    exact ⟨rfl, rfl⟩
  | beginResolution ip =>
    show (cache.beginResolution ip now).1.capacity = _ ∧
      (cache.beginResolution ip now).1.entryLifetime = _
    unfold ArpCache.beginResolution
    dsimp only
    split_ifs
    · exact ⟨rfl, rfl⟩
    · exact (cache.expire now).makeRoom_config
    · exact (cache.expire now).makeRoom_config
  | poll | stateOf ip => exact ⟨rfl, rfl⟩

theorem ArpCache.size_expire_le (cache : ArpCache) (now : TimePoint) :
    (cache.expire now).entries.size ≤ cache.entries.size :=
  Std.ExtTreeMap.size_filter_le_size

theorem ArpCache.size_makeRoom (hbounded : cache.entries.size ≤ cache.capacity)
    (h : cache.makeRoom.2 = true) : cache.makeRoom.1.entries.size < cache.capacity := by
  obtain ⟨hsmall, hroom⟩ | ⟨hfull, hroom | ⟨oldest, entry, hentry, -, hroom⟩⟩ :=
    cache.makeRoom_cases
  · rwa [hroom]
  · simp [hroom] at h
  · have hcontains : cache.entries.contains oldest = true := by
      rw [Std.ExtTreeMap.contains_eq_isSome_getElem?, hentry]
      rfl
    have hpos : 0 < cache.entries.size := by
      rw [← Std.ExtTreeMap.length_toList]
      exact List.length_pos_of_mem (Std.ExtTreeMap.mem_toList_iff_getElem?_eq_some.2 hentry)
    rw [hroom]
    show (cache.entries.erase oldest).size < _
    rw [Std.ExtTreeMap.size_erase, if_pos hcontains]
    omega

theorem size_insert_le {entries : Std.ExtTreeMap Ipv4Address ArpEntry} (ip : Ipv4Address)
    (entry : ArpEntry) : (entries.insert ip entry).size ≤ entries.size + 1 := by
  rw [Std.ExtTreeMap.size_insert]
  split_ifs
  · exact Nat.le_succ _
  · exact le_rfl

theorem ArpCache.step_bounded (hbounded : cache.entries.size ≤ cache.capacity) (now : TimePoint)
    (call : ArpCall) : (cache.step now call).1.entries.size ≤ cache.capacity := by
  have hexpire : (cache.expire now).entries.size ≤ cache.capacity :=
    (cache.size_expire_le now).trans hbounded
  -- an added entry finds room, and without room nothing is added
  have hadd : ∀ (ip : Ipv4Address) (entry : ArpEntry), (cache.expire now).makeRoom.2 = true →
      ((cache.expire now).makeRoom.1.entries.insert ip entry).size ≤ cache.capacity :=
    fun ip entry hroom => (size_insert_le ip entry).trans (ArpCache.size_makeRoom hexpire hroom)
  have hrefuse : (cache.expire now).makeRoom.2 = false →
      (cache.expire now).makeRoom.1.entries.size ≤ cache.capacity := by
    intro hroom
    rwa [(ArpCache.makeRoom_of_false hroom).1]
  cases call with
  | insert ip mac =>
    show (cache.insert ip mac now).entries.size ≤ _
    unfold ArpCache.insert
    dsimp only
    split_ifs with habsent hroom
    · exact hrefuse (by simpa using hroom)
    · exact hadd _ _ (by simpa using hroom)
    · have hcontains : (cache.expire now).entries.contains ip = true := by simpa using habsent
      rwa [Std.ExtTreeMap.size_insert, if_pos hcontains]
  | lookup ip =>
    show (cache.lookup ip now).1.entries.size ≤ _
    rwa [ArpCache.lookup_fst]
  | beginResolution ip =>
    show (cache.beginResolution ip now).1.entries.size ≤ _
    unfold ArpCache.beginResolution
    dsimp only
    split_ifs with hpresent hroom
    · exact hexpire
    · exact hrefuse (by simpa using hroom)
    · exact hadd _ _ (by simpa using hroom)
  | poll =>
    show ((cache.expire now).entries.map fun _ entry => (entry.poll now).1).size ≤ _
    rwa [Std.ExtTreeMap.size_map]
  | stateOf ip => exact hexpire

theorem ArpCache.WellFormed.step (h : cache.WellFormed) (now : TimePoint) (call : ArpCall) :
    (cache.step now call).1.WellFormed where
  bounded := by
    rw [(cache.step_config now call).1]
    exact cache.step_bounded h.bounded now call
  entries {ip} {entry} hentry :=
    (cache.step_entry now call ip).wellFormed (fun _ => h.entries) entry hentry

theorem ArpCache.wellFormed_empty (capacity : ℕ) (lifetime : Duration) :
    ({ capacity := capacity, entryLifetime := lifetime } : ArpCache).WellFormed where
  bounded := Nat.zero_le _
  entries {ip} {entry} hentry := by
    simp at hentry

/-! ## Pending resolutions -/

theorem EntryStep.incomplete (h : EntryStep cache now call reply ip (some entry) after)
    (hstate : entry.state = .incomplete) : ∃ next, after = some next ∧
      (next.state = .incomplete ∨ next.state = .resolved ∧ (∃ mac, call = .insert ip mac) ∨
        next.state = .failed ∧ call = .poll) := by
  cases h with
  | keep => exact ⟨entry, rfl, .inl hstate⟩
  | drop replaceable => exact absurd hstate replaceable
  | resolve called => exact ⟨_, rfl, .inr (.inl ⟨rfl, _, called⟩)⟩
  | start called replied gone => exact absurd hstate (ArpEntry.state_of_expired (gone entry rfl)).1
  | poll called =>
    refine ⟨_, rfl, ?_⟩
    obtain ⟨hpoll, -⟩ | ⟨-, ⟨-, hpoll⟩ | ⟨-, hpoll⟩⟩ := entry.poll_cases now
    · rw [hpoll]
      exact .inl hstate
    · rw [hpoll]
      exact .inr (.inr ⟨rfl, called⟩)
    · rw [hpoll]
      exact .inl hstate

theorem ArpCache.mem_polled {outcome : ArpPollOutcome} : ip ∈ cache.polled now outcome ↔
    ∃ entry, cache.entries[ip]? = some entry ∧ (entry.poll now).2 = outcome := by
  rw [ArpCache.polled, Std.ExtTreeMap.mem_keys, Std.ExtTreeMap.mem_iff_isSome_getElem?,
    Std.ExtTreeMap.getElem?_filter', isSome_filter, any_eq_true]
  simp only [beq_iff_eq]

theorem ArpCache.count_polled (h : cache.entries[ip]? = some entry) (outcome : ArpPollOutcome) :
    (cache.polled now outcome).count ip = if (entry.poll now).2 = outcome then 1 else 0 := by
  have hmem : ip ∈ cache.polled now outcome ↔ (entry.poll now).2 = outcome := by
    rw [ArpCache.mem_polled, h]
    constructor
    · rintro ⟨_, ⟨⟩, houtcome⟩
      exact houtcome
    · exact fun houtcome => ⟨entry, rfl, houtcome⟩
  have hnodup : (cache.polled now outcome).Nodup := Std.ExtTreeMap.nodup_keys
  rw [hnodup.count]
  exact if_congr hmem rfl rfl

theorem ArpCache.count_polled_of_none (h : cache.entries[ip]? = none) (outcome : ArpPollOutcome) :
    (cache.polled now outcome).count ip = 0 := by
  rw [List.count_eq_zero, ArpCache.mem_polled, h]
  rintro ⟨_, ⟨⟩, -⟩

end

/-! ## Retries -/

/-- The addresses that the caller is to request again. -/
def ArpReply.requests : ArpReply → List Ipv4Address
  | .polled result => result.requests
  | _ => []

/-- The addresses whose resolution is reported as failed. -/
def ArpReply.failed : ArpReply → List Ipv4Address
  | .polled result => result.failed
  | _ => []

/-- How many retries the events ask for. -/
def retries (ip : Ipv4Address) (events : List ArpEvent) : ℕ :=
  (events.map fun event => event.reply.requests.count ip).sum

/-- How many times the events report that the resolution failed. -/
def failures (ip : Ipv4Address) (events : List ArpEvent) : ℕ :=
  (events.map fun event => event.reply.failed.count ip).sum

/-- The event resolves the address, or starts another resolution of it. -/
def ArpEvent.Renews (event : ArpEvent) (ip : Ipv4Address) : Prop :=
  (∃ mac, event.call = .insert ip mac) ∨
    event.call = .beginResolution ip ∧ event.reply = .started true

/-- How far a resolution has come: it is pending, with one transmission more than there were retries,
    or it was reported once, after the last of them. -/
def Pursued (retried reported : ℕ) (entry : Option ArpEntry) : Prop :=
  reported = 0 ∧ (∃ pending, entry = some pending ∧ pending.state = .incomplete ∧
      pending.transmitCount = retried + 1) ∨
    reported = 1 ∧ retried + 1 = kArpMaxTransmissions ∧
      ∀ failed, entry = some failed → failed.state = .failed

section

variable {cache : ArpCache} {now : TimePoint} {call : ArpCall} {ip : Ipv4Address}
  {retried reported : ℕ}

theorem requests_of_ne_poll (h : call ≠ .poll) :
    (cache.step now call).2.requests = [] ∧ (cache.step now call).2.failed = [] := by
  cases call with
  | poll => exact absurd rfl h
  | insert | lookup | beginResolution | stateOf => exact ⟨rfl, rfl⟩

theorem Pursued.poll (hcache : cache.WellFormed) (h : Pursued retried reported cache.entries[ip]?)
    (now : TimePoint) : Pursued (retried + (cache.poll now).2.requests.count ip)
      (reported + (cache.poll now).2.failed.count ip) (cache.poll now).1.entries[ip]? := by
  have hrequests : (cache.poll now).2.requests = (cache.expire now).polled now .request := rfl
  have hfailed : (cache.poll now).2.failed = (cache.expire now).polled now .failed := rfl
  rw [ArpCache.getElem?_poll, hrequests, hfailed]
  cases hentry : (cache.expire now).entries[ip]? with
  | none =>
    rw [ArpCache.count_polled_of_none hentry, ArpCache.count_polled_of_none hentry]
    obtain ⟨-, pending, hpending, hstate, -⟩ | ⟨hreported, hlast, -⟩ := h
    · have hexpired := ArpCache.getElem?_expire_eq_none.1 hentry pending hpending
      exact absurd hstate (ArpEntry.state_of_expired hexpired).1
    · exact .inr ⟨hreported, hlast, by rintro _ ⟨⟩⟩
  | some entry =>
    have hbefore := (ArpCache.getElem?_expire_eq_some.1 hentry).1
    rw [ArpCache.count_polled hentry, ArpCache.count_polled hentry, map_some]
    obtain ⟨hreported, pending, hpending, hstate, hcount⟩ | ⟨hreported, hlast, hstate⟩ := h
    · rw [hbefore] at hpending
      cases hpending
      obtain ⟨hpoll, -⟩ | ⟨-, ⟨hdone, hpoll⟩ | ⟨-, hpoll⟩⟩ := entry.poll_cases now
      · rw [hpoll]
        exact .inl ⟨hreported, entry, rfl, hstate, hcount⟩
      · have hmax := ((hcache.entries hbefore).incomplete hstate).2.2
        rw [hpoll]
        refine .inr ⟨by rw [hreported]; rfl, ?_, ?_⟩
        · show retried + 0 + 1 = _
          omega
        · rintro _ ⟨⟩
          rfl
      · rw [hpoll]
        refine .inl ⟨by rw [hreported]; rfl, _, rfl, hstate, ?_⟩
        show entry.transmitCount + 1 = retried + 1 + 1
        rw [hcount]
    · have hfailed := hstate entry hbefore
      obtain ⟨hpoll, -⟩ | ⟨hincomplete, -⟩ := entry.poll_cases now
      · rw [hpoll]
        refine .inr ⟨hreported, hlast, ?_⟩
        rintro _ ⟨⟩
        exact hfailed
      · simp [hfailed] at hincomplete

theorem Pursued.step (hcache : cache.WellFormed) (h : Pursued retried reported cache.entries[ip]?)
    (hrenewed : ¬ArpEvent.Renews ⟨now, call, (cache.step now call).2⟩ ip) :
    Pursued (retried + (cache.step now call).2.requests.count ip)
      (reported + (cache.step now call).2.failed.count ip) (cache.step now call).1.entries[ip]? := by
  by_cases hpoll : call = .poll
  · subst hpoll
    exact h.poll hcache now
  · obtain ⟨hrequests, hfailed⟩ := @requests_of_ne_poll cache now call hpoll
    rw [hrequests, hfailed]
    obtain ⟨hinsert, hstart⟩ := not_or.1 hrenewed
    have hstep := cache.step_entry now call ip
    revert hstep h
    generalize cache.entries[ip]? = before
    generalize (cache.step now call).1.entries[ip]? = after
    intro h hstep
    cases hstep with
    | keep => exact h
    | drop replaceable =>
      obtain ⟨-, pending, hpending, hstate, -⟩ | ⟨hreported, hlast, -⟩ := h
      · cases hpending
        exact absurd hstate replaceable
      · exact .inr ⟨hreported, hlast, by rintro _ ⟨⟩⟩
    | resolve called => exact absurd ⟨_, called⟩ hinsert
    | start called replied => exact absurd ⟨called, replied⟩ hstart
    | poll called => exact absurd called hpoll

theorem Pursued.run (hcache : cache.WellFormed) (h : Pursued retried reported cache.entries[ip]?)
    (calls : List (TimePoint × ArpCall))
    (hrenewed : ∀ event ∈ (cache.run calls).2, ¬event.Renews ip) :
    Pursued (retried + retries ip (cache.run calls).2) (reported + failures ip (cache.run calls).2)
      (cache.run calls).1.entries[ip]? := by
  induction calls generalizing cache retried reported with
  | nil => exact h
  | cons call calls ih =>
    obtain ⟨now, call⟩ := call
    obtain ⟨hfirst, hrest⟩ := List.forall_mem_cons.1 hrenewed
    have hnext := ih (hcache.step now call) (h.step hcache hfirst) hrest
    rwa [Nat.add_assoc, Nat.add_assoc] at hnext

theorem pursued_beginResolution (h : (cache.beginResolution ip now).2 = true) :
    Pursued 0 0 (cache.beginResolution ip now).1.entries[ip]? := by
  have hentry : (cache.beginResolution ip now).1.entries[ip]? = some (.pendingAt now) := by
    unfold ArpCache.beginResolution at h ⊢
    dsimp only at h ⊢
    split_ifs at h ⊢
    exact Std.ExtTreeMap.getElem?_insert_self
  exact .inl ⟨rfl, _, hentry, rfl, rfl⟩

/-! ## Deadlines -/

theorem ArpEntry.lt_deadline_poll {lifetime : Duration} (hlifetime : 0 < lifetime)
    (hfresh : entry.expired lifetime now = false)
    (h : (entry.poll now).1.deadline lifetime = some deadline) : now < deadline := by
  have hlater : ∀ {t : TimePoint}, now < t + lifetime → some (t + lifetime) = some deadline →
      now < deadline := by
    rintro t hlt ⟨⟩
    exact hlt
  obtain ⟨hpoll, hearly⟩ | ⟨hstate, ⟨-, hpoll⟩ | ⟨-, hpoll⟩⟩ := entry.poll_cases now
  · rw [hpoll, ArpEntry.deadline] at h
    by_cases hstate : entry.state = .incomplete
    · rw [if_neg (by rw [hstate]; decide)] at h
      exact hearly hstate deadline h
    · rw [if_pos (bne_iff_ne.2 hstate)] at h
      rw [ArpEntry.expired, bne_iff_ne.2 hstate, Bool.true_and, decide_eq_false_iff_not] at hfresh
      exact hlater (sub_lt_iff_lt_add'.1 (not_le.1 hfresh)) h
  · rw [hpoll] at h
    exact hlater (lt_add_of_pos_right now hlifetime) h
  · rw [hpoll, ArpEntry.deadline, if_neg (by rw [hstate]; decide)] at h
    cases h
    exact lt_add_of_pos_right now (by decide)

theorem earlierDeadline_eq_some (lifetime : Duration) (deadline : Option TimePoint)
    (item : Ipv4Address × ArpEntry) (result : TimePoint)
    (h : earlierDeadline lifetime deadline item = some result) :
    deadline = some result ∨ item.2.deadline lifetime = some result := by
  unfold earlierDeadline at h
  cases hcandidate : item.2.deadline lifetime with
  | none =>
    rw [hcandidate] at h
    exact .inl h
  | some candidate =>
    rw [hcandidate] at h
    cases deadline with
    | none => exact .inr h
    | some earliest =>
      dsimp only at h
      split_ifs at h
      · exact .inr h
      · exact .inl h

theorem ArpCache.lt_nextDeadline_poll (hlifetime : 0 < cache.entryLifetime)
    (h : (cache.poll now).1.nextDeadline = some deadline) : now < deadline := by
  obtain hnone | ⟨⟨ip, entry⟩, hmem, hdeadline⟩ :=
    exists_of_foldl_eq_some (earlierDeadline_eq_some _) h
  · cases hnone
  have hentry := Std.ExtTreeMap.mem_toList_iff_getElem?_eq_some.1 hmem
  rw [ArpCache.getElem?_poll] at hentry
  obtain ⟨before, hbefore, rfl⟩ := map_eq_some_iff.1 hentry
  exact ArpEntry.lt_deadline_poll hlifetime (ArpCache.getElem?_expire_eq_some.1 hbefore).2 hdeadline

end

/-! ## Runs -/

theorem ArpCache.run_wellFormed {cache : ArpCache} (h : cache.WellFormed)
    (calls : List (TimePoint × ArpCall)) : (cache.run calls).1.WellFormed :=
  ArpCache.run_induction h (fun _ now call hcache => hcache.step now call) calls

theorem ArpCache.run_config (cache : ArpCache) (calls : List (TimePoint × ArpCall)) :
    (cache.run calls).1.capacity = cache.capacity ∧
      (cache.run calls).1.entryLifetime = cache.entryLifetime := by
  refine @ArpCache.run_induction
    (fun reached => reached.capacity = cache.capacity ∧ reached.entryLifetime = cache.entryLifetime)
    cache ⟨rfl, rfl⟩ (fun reached now call hreached => ?_) calls
  obtain ⟨hcapacity, hlifetime⟩ := reached.step_config now call
  exact ⟨hcapacity.trans hreached.1, hlifetime.trans hreached.2⟩

/-- **Resolutions in every run.** The cache stays within its capacity and its entries well formed;
    a pending resolution ends only by an insertion or by a failing poll; of a resolution that was
    started at most two retries are asked for, and it is pending still or has been reported as failed
    once; after a poll nothing is due. The order of the times makes no difference to any of this. -/
theorem arpCache_resolution (capacity : ℕ) (lifetime : Duration) (hlifetime : 0 < lifetime)
    (calls : List (TimePoint × ArpCall)) :
    let cache := (({ capacity := capacity, entryLifetime := lifetime } : ArpCache).run calls).1
    cache.entries.size ≤ capacity ∧
    (∀ (ip : Ipv4Address) (entry : ArpEntry), cache.entries[ip]? = some entry →
      (entry.state = .resolved → entry.mac.isSome = true) ∧
      (entry.state = .incomplete → entry.nextDeadline.isSome = true ∧
        1 ≤ entry.transmitCount ∧ entry.transmitCount ≤ 3)) ∧
    (∀ (ip : Ipv4Address) (entry : ArpEntry) (now : TimePoint) (call : ArpCall),
      cache.entries[ip]? = some entry → entry.state = .incomplete →
      ∃ next, (cache.step now call).1.entries[ip]? = some next ∧
        (next.state = .incomplete ∨ next.state = .resolved ∧ (∃ mac, call = .insert ip mac) ∨
          next.state = .failed ∧ call = .poll)) ∧
    (∀ (ip : Ipv4Address) (now : TimePoint) (more : List (TimePoint × ArpCall)),
      (cache.beginResolution ip now).2 = true →
      let run := (cache.beginResolution ip now).1.run more
      (∀ event ∈ run.2, ¬event.Renews ip) →
      retries ip run.2 ≤ 2 ∧
      (failures ip run.2 = 0 ∧
          (∃ entry, run.1.entries[ip]? = some entry ∧ entry.state = .incomplete) ∨
        failures ip run.2 = 1 ∧ ∀ entry, run.1.entries[ip]? = some entry → entry.state = .failed)) ∧
    (∀ now deadline : TimePoint, (cache.poll now).1.nextDeadline = some deadline →
      now < deadline) := by
  intro cache
  have hcache : cache.WellFormed :=
    ArpCache.run_wellFormed (ArpCache.wellFormed_empty capacity lifetime) calls
  obtain ⟨hcapacity, hkept⟩ :=
    ({ capacity := capacity, entryLifetime := lifetime } : ArpCache).run_config calls
  refine ⟨hcache.bounded.trans_eq hcapacity, ?_, ?_, ?_, ?_⟩
  · intro ip entry hentry
    exact ⟨(hcache.entries hentry).resolved, (hcache.entries hentry).incomplete⟩
  · intro ip entry now call hentry hstate
    have hstep := cache.step_entry now call ip
    rw [hentry] at hstep
    exact hstep.incomplete hstate
  · intro ip now more hstarted run hrenewed
    have hstart : (cache.beginResolution ip now).1.WellFormed :=
      hcache.step now (.beginResolution ip)
    have hpursued := (pursued_beginResolution hstarted).run hstart more hrenewed
    rw [Nat.zero_add, Nat.zero_add] at hpursued
    obtain ⟨hreported, pending, hpending, hstate, hcount⟩ | ⟨hreported, hlast, hfailed⟩ := hpursued
    · have hmax := (((ArpCache.run_wellFormed hstart more).entries hpending).incomplete hstate).2.2
      rw [hcount] at hmax
      exact ⟨Nat.le_of_succ_le_succ hmax, .inl ⟨hreported, pending, hpending, hstate⟩⟩
    · exact ⟨(Nat.succ.inj hlast).le, .inr ⟨hreported, hfailed⟩⟩
  · intro now deadline hdeadline
    refine ArpCache.lt_nextDeadline_poll ?_ hdeadline
    rwa [hkept]

/-- A resolution in an empty cache of one entry that is polled until it fails. -/
theorem arpCache_resolution_example : let ip : Ipv4Address := ⟨#v[10, 0, 0, 1]⟩
    let cache : ArpCache := { capacity := 1, entryLifetime := kArpEntryLifetime }
    let more : List (TimePoint × ArpCall) :=
      [(milliseconds 1000, .poll), (milliseconds 2000, .poll), (milliseconds 3000, .poll)]
    (cache.beginResolution ip 0).2 = true ∧
      retries ip ((cache.beginResolution ip 0).1.run more).2 ≤ 2 := by
  intro ip cache more
  have hstarted : (cache.beginResolution ip 0).2 = true := by decide +kernel
  refine ⟨hstarted, ?_⟩
  have hrenewed : ∀ event ∈ ((cache.beginResolution ip 0).1.run more).2, ¬event.Renews ip := by
    refine List.forall_mem_cons.2 ⟨?_, List.forall_mem_cons.2 ⟨?_, List.forall_mem_cons.2 ⟨?_, ?_⟩⟩⟩
    · rintro (⟨_, ⟨⟩⟩ | ⟨⟨⟩, -⟩)
    · rintro (⟨_, ⟨⟩⟩ | ⟨⟨⟩, -⟩)
    · rintro (⟨_, ⟨⟩⟩ | ⟨⟨⟩, -⟩)
    · exact List.forall_mem_nil _
  exact ((arpCache_resolution 1 kArpEntryLifetime (by decide) []).2.2.2.1 ip 0 more hstarted
    hrenewed).1

end Wirestack
