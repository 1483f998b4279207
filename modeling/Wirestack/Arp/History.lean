import Mathlib.Data.List.Dedup
import Wirestack.Arp.Resolution

set_option autoImplicit false

/-! # The cache and the history of insertions

A cache that never forgot anything too early would answer a lookup from the history alone: with the
address of the last insertion, unless that is a lifetime ago (`lastInsert`). The ARP cache answers with
nothing else (`Recalls`), and while the calls mention no more addresses than there is room for, it
answers always (`Retains`). -/

namespace Wirestack

open List

variable {ip : Ipv4Address} {entry : ArpEntry} {now : TimePoint} {mac : MacAddress}

/-! ## Histories -/

/-- The address that a call is about. -/
def ArpCall.address : ArpCall → Option Ipv4Address
  | .insert ip _ => some ip
  | .lookup ip => some ip
  | .beginResolution ip => some ip
  | .poll => none
  | .stateOf ip => some ip

/-- The addresses that the calls mention. -/
def mentioned (calls : List (TimePoint × ArpCall)) : List Ipv4Address :=
  calls.filterMap fun call => call.2.address

/-- What a call inserts for the address, and when. -/
def inserted (ip : Ipv4Address) : TimePoint × ArpCall → Option (MacAddress × TimePoint)
  | (now, .insert other mac) => if other = ip then some (mac, now) else none
  | _ => none

/-- The most recent insertion for the address. -/
def lastInsert (calls : List (TimePoint × ArpCall)) (ip : Ipv4Address) :
    Option (MacAddress × TimePoint) :=
  calls.reverse.findSome? (inserted ip)

theorem lastInsert_concat (calls : List (TimePoint × ArpCall)) (call : TimePoint × ArpCall)
    (ip : Ipv4Address) :
    lastInsert (calls ++ [call]) ip = (inserted ip call).or (lastInsert calls ip) := by
  rw [lastInsert, reverse_append, reverse_singleton, singleton_append, findSome?_cons]
  cases inserted ip call with
  | some insertion | none => rfl

theorem inserted_insert (now : TimePoint) (ip : Ipv4Address) (mac : MacAddress) :
    inserted ip (now, .insert ip mac) = some (mac, now) := if_pos rfl

theorem inserted_eq_none {call : ArpCall} (now : TimePoint) (h : ∀ mac, call ≠ .insert ip mac) :
    inserted ip (now, call) = none := by
  cases call with
  | insert other mac =>
    refine if_neg ?_
    rintro rfl
    exact h mac rfl
  | lookup | beginResolution | poll | stateOf => rfl

theorem ArpCache.run_concat (cache : ArpCache) (calls : List (TimePoint × ArpCall))
    (now : TimePoint) (call : ArpCall) :
    (cache.run (calls ++ [(now, call)])).1 = ((cache.run calls).1.step now call).1 :=
  cache.run_append calls [(now, call)]

/-! ## What is in the cache -/

/-- Everything in the cache was mentioned, and whatever is resolved is as it was last inserted. -/
structure Recalls (calls : List (TimePoint × ArpCall)) (cache : ArpCache) : Prop where
  mentions : ∀ {ip : Ipv4Address} {entry : ArpEntry}, cache.entries[ip]? = some entry →
    ip ∈ mentioned calls
  insertions : ∀ {ip : Ipv4Address} {entry : ArpEntry}, cache.entries[ip]? = some entry →
    entry.state = .resolved →
      ∃ mac, entry.mac = some mac ∧ lastInsert calls ip = some (mac, entry.updatedAt)

theorem ArpEntry.poll_resolved (h : (entry.poll now).1.state = .resolved) :
    (entry.poll now).1 = entry := by
  obtain ⟨hpoll, -⟩ | ⟨hstate, ⟨-, hpoll⟩ | ⟨-, hpoll⟩⟩ := entry.poll_cases now
  · rw [hpoll]
  · simp [hpoll] at h
  · rw [hpoll] at h
    exact absurd (hstate.symm.trans h) (by decide)

section

variable {cache : ArpCache} {now : TimePoint} {call : ArpCall} {reply : ArpReply}
  {ip : Ipv4Address} {entry : ArpEntry} {before after : Option ArpEntry}

theorem EntryStep.present (h : EntryStep cache now call reply ip before (some entry)) :
    (∃ previous, before = some previous) ∨ call.adds = some ip := by
  cases h with
  | keep => exact .inl ⟨entry, rfl⟩
  | resolve called | start called =>
    rw [called]
    exact .inr rfl
  | poll => exact .inl ⟨_, rfl⟩

theorem EntryStep.resolved (h : EntryStep cache now call reply ip before (some entry))
    (hstate : entry.state = .resolved) :
    before = some entry ∧ (∀ mac, call ≠ .insert ip mac) ∨
      ∃ mac, call = .insert ip mac ∧ entry = .resolvedAt mac now := by
  cases h with
  | keep fresh notInserted =>
    refine .inl ⟨rfl, fun mac called => ?_⟩
    cases (notInserted mac called).1
  | resolve called => exact .inr ⟨_, called, rfl⟩
  | start => cases hstate
  | poll called =>
    refine .inl ⟨congrArg some (ArpEntry.poll_resolved hstate).symm, fun mac hinsert => ?_⟩
    simp [called] at hinsert

theorem EntryStep.inserted (h : EntryStep cache now (.insert ip mac) reply ip before after)
    (hroom : ¬cache.Full now (.insert ip mac)) : after = some (.resolvedAt mac now) := by
  cases h with
  | keep fresh notInserted => exact absurd (notInserted mac rfl).2 hroom
  | drop replaceable reason notInserted => exact absurd (notInserted mac rfl) hroom
  | resolve called =>
    cases called
    rfl
  | start called | poll called => cases called

theorem EntryStep.retained {t : TimePoint}
    (h : EntryStep cache now call reply ip (some (.resolvedAt mac t)) after)
    (hroom : ¬cache.Full now call) (hinsert : ∀ mac, call ≠ .insert ip mac) :
    after = some (.resolvedAt mac t) ∨ cache.entryLifetime ≤ now - t := by
  cases h with
  | keep => exact .inl rfl
  | drop replaceable reason =>
    rcases reason with hexpired | hfull
    · exact .inr (ArpEntry.state_of_expired hexpired).2
    · exact absurd hfull hroom
  | resolve called => exact absurd called (hinsert _)
  | start called replied gone => exact .inr (ArpEntry.state_of_expired (gone _ rfl)).2
  | poll => exact .inl rfl

end

section

variable {calls : List (TimePoint × ArpCall)} {cache : ArpCache} {now : TimePoint} {call : ArpCall}

theorem mentioned_concat (calls : List (TimePoint × ArpCall)) (now : TimePoint) (call : ArpCall) :
    mentioned (calls ++ [(now, call)]) = mentioned calls ++ call.address.toList := by
  rw [mentioned, filterMap_append]
  cases haddress : call.address with
  | none | some ip => simp [mentioned, haddress]

theorem ArpCall.address_of_adds (h : call.adds = some ip) : call.address = some ip := by
  cases call with
  | insert | beginResolution => exact h
  | lookup | poll | stateOf => cases h

theorem Recalls.step (h : Recalls calls cache) (now : TimePoint) (call : ArpCall) :
    Recalls (calls ++ [(now, call)]) (cache.step now call).1 := by
  refine ⟨fun {ip entry} hentry => ?_, fun {ip entry} hentry hstate => ?_⟩
  · have hstep := cache.step_entry now call ip
    rw [hentry] at hstep
    rw [mentioned_concat, mem_append]
    rcases hstep.present with ⟨previous, hprevious⟩ | hadds
    · exact .inl (h.mentions hprevious)
    · rw [ArpCall.address_of_adds hadds]
      exact .inr (mem_singleton_self ip)
  · have hstep := cache.step_entry now call ip
    rw [hentry] at hstep
    rw [lastInsert_concat]
    rcases hstep.resolved hstate with ⟨hbefore, hinsert⟩ | ⟨mac, rfl, rfl⟩
    · rw [inserted_eq_none now hinsert]
      exact h.insertions hbefore hstate
    · rw [inserted_insert]
      exact ⟨mac, rfl, rfl⟩

/-! ## What is not lost -/

theorem length_le_dedup {l mentions : List Ipv4Address} (hnodup : l.Nodup) (h : l ⊆ mentions) :
    l.length ≤ mentions.dedup.length :=
  (hnodup.subperm fun _ hmem => mem_dedup.2 (h hmem)).length_le

theorem Recalls.not_full (h : Recalls calls cache)
    (hfew : (mentioned (calls ++ [(now, call)])).dedup.length ≤ cache.capacity) :
    ¬cache.Full now call := by
  rintro ⟨ip, hadds, habsent, hfull⟩
  have hip : ip ∉ (cache.expire now).entries.keys := by
    rw [Std.ExtTreeMap.mem_keys, Std.ExtTreeMap.mem_iff_isSome_getElem?, habsent]
    exact Bool.false_ne_true
  have hnodup : (ip :: (cache.expire now).entries.keys).Nodup :=
    nodup_cons.2 ⟨hip, Std.ExtTreeMap.nodup_keys⟩
  have hmentioned : ip :: (cache.expire now).entries.keys ⊆ mentioned (calls ++ [(now, call)]) := by
    rw [mentioned_concat, ArpCall.address_of_adds hadds]
    refine cons_subset.2 ⟨mem_append_right _ (mem_singleton_self ip), ?_⟩
    intro key hkey
    rw [Std.ExtTreeMap.mem_keys, Std.ExtTreeMap.mem_iff_isSome_getElem?,
      Option.isSome_iff_exists] at hkey
    obtain ⟨entry, hentry⟩ := hkey
    exact mem_append_left _ (h.mentions (ArpCache.getElem?_expire_eq_some.1 hentry).1)
  have hlength := length_le_dedup hnodup hmentioned
  rw [length_cons, Std.ExtTreeMap.length_keys] at hlength
  omega

/-- The last insertion is in the cache, unless its lifetime is over by any time after the calls. -/
def Retains (calls : List (TimePoint × ArpCall)) (cache : ArpCache) : Prop :=
  ∀ (ip : Ipv4Address) (mac : MacAddress) (t now : TimePoint),
    lastInsert calls ip = some (mac, t) → (∀ call ∈ calls, call.1 ≤ now) →
      cache.entries[ip]? = some (.resolvedAt mac t) ∨ cache.entryLifetime ≤ now - t

theorem Retains.step (h : Retains calls cache) (hroom : ¬cache.Full now call)
    (htimes : ∀ earlier ∈ calls, earlier.1 ≤ now) :
    Retains (calls ++ [(now, call)]) (cache.step now call).1 := by
  intro ip mac t later hlast hlater
  have hnow : now ≤ later := hlater (now, call) (mem_append_right _ (mem_singleton_self _))
  have hstep := cache.step_entry now call ip
  rw [(cache.step_config now call).2]
  rw [lastInsert_concat] at hlast
  by_cases hinsert : ∃ mac, call = .insert ip mac
  · obtain ⟨mac', rfl⟩ := hinsert
    rw [inserted_insert] at hlast
    cases hlast
    exact .inl (hstep.inserted hroom)
  · have hother : ∀ mac, call ≠ .insert ip mac := fun mac hcall => hinsert ⟨mac, hcall⟩
    rw [inserted_eq_none now hother] at hlast
    have hover : cache.entryLifetime ≤ now - t → cache.entryLifetime ≤ later - t := fun hover =>
      hover.trans (sub_le_sub_right hnow t)
    rcases h ip mac t now hlast htimes with hentry | hexpired
    · rw [hentry] at hstep
      exact (hstep.retained hroom hother).imp_right hover
    · exact .inr (hover hexpired)

end

/-! ## Runs -/

section

variable {capacity : ℕ} {lifetime : Duration} {calls : List (TimePoint × ArpCall)}

theorem run_recalls : Recalls calls
    (({ capacity := capacity, entryLifetime := lifetime } : ArpCache).run calls).1 := by
  induction calls using reverseRecOn with
  | nil =>
    refine ⟨fun {ip entry} hentry => ?_, fun {ip entry} hentry => ?_⟩
    · simp [ArpCache.run] at hentry
    · simp [ArpCache.run] at hentry
  | append_singleton calls call ih =>
    obtain ⟨now, call⟩ := call
    rw [ArpCache.run_concat]
    exact ih.step ..

theorem run_retains (hfew : (mentioned calls).dedup.length ≤ capacity)
    (htimes : (calls.map Prod.fst).Pairwise (· ≤ ·)) : Retains calls
      (({ capacity := capacity, entryLifetime := lifetime } : ArpCache).run calls).1 := by
  induction calls using reverseRecOn with
  | nil =>
    intro ip mac t now hlast
    cases hlast
  | append_singleton calls call ih =>
    obtain ⟨now, call⟩ := call
    rw [map_append, pairwise_append] at htimes
    have hearlier : ∀ earlier ∈ calls, earlier.1 ≤ now := fun earlier hearlier =>
      htimes.2.2 earlier.1 (mem_map_of_mem hearlier) now (mem_singleton_self now)
    have hfewer : (mentioned calls).dedup.length ≤
        (mentioned (calls ++ [(now, call)])).dedup.length := by
      refine length_le_dedup (nodup_dedup _) fun ip hip => ?_
      rw [mentioned_concat]
      exact mem_append_left _ (mem_dedup.1 hip)
    rw [ArpCache.run_concat]
    refine (ih (hfewer.trans hfew) htimes.1).step ?_ hearlier
    refine run_recalls.not_full ?_
    rwa [(ArpCache.run_config _ calls).1]

end

theorem ArpCache.lookup_eq_some_iff {cache : ArpCache} : (cache.lookup ip now).2 = some mac ↔
      ∃ entry, cache.entries[ip]? = some entry ∧
        entry.expired cache.entryLifetime now = false ∧ entry.state = .resolved ∧
        entry.mac = some mac := by
  unfold ArpCache.lookup
  dsimp only
  cases hentry : (cache.expire now).entries[ip]? with
  | none =>
    refine iff_of_false (by rintro ⟨⟩) ?_
    rintro ⟨entry, hbefore, hfresh, -⟩
    simp [ArpCache.getElem?_expire_eq_some.2 ⟨hbefore, hfresh⟩] at hentry
  | some entry =>
    obtain ⟨hbefore, hfresh⟩ := ArpCache.getElem?_expire_eq_some.1 hentry
    rw [hbefore]
    dsimp only
    by_cases hstate : entry.state = .resolved
    · rw [if_neg (by rw [hstate]; decide)]
      constructor
      · exact fun hmac => ⟨entry, rfl, hfresh, hstate, hmac⟩
      · rintro ⟨_, ⟨⟩, -, -, hmac⟩
        exact hmac
    · rw [if_pos (bne_iff_ne.2 hstate)]
      refine iff_of_false (by rintro ⟨⟩) ?_
      rintro ⟨_, ⟨⟩, -, hresolved, -⟩
      exact hstate hresolved

theorem ArpEntry.expired_eq_false_iff {lifetime : Duration} (h : entry.state = .resolved) :
    entry.expired lifetime now = false ↔ now - entry.updatedAt < lifetime := by
  rw [ArpEntry.expired, h, show (ArpNeighborState.resolved != .incomplete) = true from rfl,
    Bool.true_and, decide_eq_false_iff_not, not_le]

/-- **The cache never serves a stale or foreign mapping.** What a lookup returns is the most recent
    insertion for the address, less than a lifetime ago; and while the history mentions no more
    addresses than fit, a lookup returns that insertion always. -/
theorem arpCache_lookup (capacity : ℕ) (lifetime : Duration) (calls : List (TimePoint × ArpCall))
    (ip : Ipv4Address) (now : TimePoint)
    (htimes : (calls.map Prod.fst ++ [now]).Pairwise (· ≤ ·)) :
    let cache := (({ capacity := capacity, entryLifetime := lifetime } : ArpCache).run calls).1
    (∀ mac, (cache.lookup ip now).2 = some mac →
      ∃ t, lastInsert calls ip = some (mac, t) ∧ now - t < lifetime) ∧
    ((mentioned calls).dedup.length ≤ capacity → ∀ mac, (cache.lookup ip now).2 = some mac ↔
      ∃ t, lastInsert calls ip = some (mac, t) ∧ now - t < lifetime) := by
  intro cache
  obtain ⟨hcalls, -, hnow⟩ := pairwise_append.1 htimes
  have hkept : cache.entryLifetime = lifetime := (ArpCache.run_config _ calls).2
  have hserved : ∀ mac, (cache.lookup ip now).2 = some mac →
      ∃ t, lastInsert calls ip = some (mac, t) ∧ now - t < lifetime := by
    intro mac hlookup
    obtain ⟨entry, hentry, hfresh, hstate, hmac⟩ := ArpCache.lookup_eq_some_iff.1 hlookup
    obtain ⟨inserted, hinserted, hlast⟩ := run_recalls.insertions hentry hstate
    rw [hinserted, Option.some_inj] at hmac
    subst hmac
    rw [hkept, ArpEntry.expired_eq_false_iff hstate] at hfresh
    exact ⟨entry.updatedAt, hlast, hfresh⟩
  refine ⟨hserved, fun hfew mac => ⟨hserved mac, ?_⟩⟩
  rintro ⟨t, hlast, hyoung⟩
  have hbefore : ∀ call ∈ calls, call.1 ≤ now := fun call hcall =>
    hnow call.1 (mem_map_of_mem hcall) now (mem_singleton_self now)
  rcases run_retains hfew hcalls ip mac t now hlast hbefore with hentry | hexpired
  · refine ArpCache.lookup_eq_some_iff.2 ⟨_, hentry, ?_, rfl, rfl⟩
    rw [hkept]
    exact (ArpEntry.expired_eq_false_iff rfl).2 hyoung
  · rw [show _ = lifetime from hkept] at hexpired
    exact absurd hyoung (not_lt.2 hexpired)

/-- Two addresses in a cache of two entries: the first is still served after the second came. -/
theorem arpCache_lookup_example : let first : Ipv4Address := ⟨#v[10, 0, 0, 1]⟩
    let second : Ipv4Address := ⟨#v[10, 0, 0, 2]⟩
    let mac : MacAddress := ⟨#v[2, 0, 0, 0, 0, 1]⟩
    let calls : List (TimePoint × ArpCall) :=
      [(0, .insert first mac), (milliseconds 1000, .beginResolution second),
        (milliseconds 2000, .poll)]
    ((({ capacity := 2, entryLifetime := kArpEntryLifetime } : ArpCache).run calls).1.lookup first
      (milliseconds 3000)).2 = some mac := by
  intro first second mac calls
  have hserved := arpCache_lookup 2 kArpEntryLifetime calls first (milliseconds 3000)
    (by decide +kernel)
  exact (hserved.2 (by decide +kernel) mac).2 ⟨0, by decide +kernel, by decide +kernel⟩

end Wirestack
