import Wirestack.Tcp.Replay
import Wirestack.Tcp.Transitions

set_option autoImplicit false

/-! # The limits of the table

The table refuses a new connection when it is full (`atCapacity`) and never looks at its limits
otherwise. A call adds at most one key, only to a table that is not full, and never makes a
synchronized connection half-open again, so both counts stay within their limits along every run.

For a key that has a connection, what a call returns and leaves behind is a function of that
connection (`performAt`). Two tables with the same connection for the key therefore agree on it for
as long as it exists, whatever their limits and whatever else they hold. -/

namespace Wirestack

open List

variable {t' : TcpConnectionTable} {now : TimePoint} {op : Op} {c : Connection}

variable {t : TcpConnectionTable} {P : Connection → Bool} {key : TcpConnectionKey} {s : Traced}

namespace TcpConnectionTable

/-! ## Counting -/

/-- How many connections have the property. -/
def count (t : TcpConnectionTable) (P : Connection → Bool) : ℕ :=
  t.connections.toList.countP fun p => P p.2

theorem count_true (t : TcpConnectionTable) : t.count (fun _ => true) = t.connections.size := by
  rw [count, countP_true, Std.ExtTreeMap.length_toList]

def isHalfOpen (c : Connection) : Bool := !c.state.synchronized

theorem halfOpenCount_eq (t : TcpConnectionTable) : t.halfOpenCount = t.count isHalfOpen := by
  unfold halfOpenCount count
  congr 1
  funext p
  unfold isHalfOpen
  cases p.2.state <;> rfl

/-- The keys of the connections that have the property. -/
def keysWith (t : TcpConnectionTable) (P : Connection → Bool) : List TcpConnectionKey :=
  (t.connections.toList.filter fun p => P p.2).map Prod.fst

theorem length_keysWith (t : TcpConnectionTable) (P : Connection → Bool) :
    (t.keysWith P).length = t.count P := by
  rw [keysWith, count, length_map, countP_eq_length_filter]

theorem mem_keysWith : key ∈ t.keysWith P ↔ ∃ c, t.find? key = some c ∧ P c = true := by
  unfold keysWith
  constructor
  · intro h
    obtain ⟨⟨k, c⟩, hmem, rfl⟩ := mem_map.1 h
    obtain ⟨hmem, hP⟩ := mem_filter.1 hmem
    exact ⟨c, (t.mem_toList_iff k c).1 hmem, hP⟩
  · rintro ⟨c, hc, hP⟩
    exact mem_map.2 ⟨(key, c), mem_filter.2 ⟨(t.mem_toList_iff key c).2 hc, hP⟩, rfl⟩

theorem nodup_keysWith (t : TcpConnectionTable) (P : Connection → Bool) : (t.keysWith P).Nodup :=
  t.nodup_toList_keys.sublist (filter_sublist.map _)

theorem count_le_succ (k : TcpConnectionKey)
    (h : ∀ key c', key ≠ k → t'.find? key = some c' → P c' = true → ∃ c, t.find? key = some c ∧ P c
      = true) : t'.count P ≤ t.count P + 1 := by
  rw [← length_keysWith, ← length_keysWith]
  have hsub : t'.keysWith P ⊆ k :: t.keysWith P := by
    intro key hkey
    obtain ⟨c', hc', hP⟩ := mem_keysWith.1 hkey
    by_cases hk : key = k
    · rw [hk]
      exact mem_cons_self ..
    · exact mem_cons_of_mem _ (mem_keysWith.2 (h key c' hk hc' hP))
  exact ((t'.nodup_keysWith P).subperm hsub).length_le

theorem count_le
    (h : ∀ key c', t'.find? key = some c' → P c' = true → ∃ c, t.find? key = some c ∧ P c = true) :
    t'.count P ≤ t.count P := by
  rw [← length_keysWith, ← length_keysWith]
  refine ((t'.nodup_keysWith P).subperm fun key hkey => ?_).length_le
  obtain ⟨c', hc', hP⟩ := mem_keysWith.1 hkey
  exact mem_keysWith.2 (h key c' hc' hP)

/-! ## Admission -/

theorem nextIsn_limits (t : TcpConnectionTable) : t.nextIsn.1.maxConnections = t.maxConnections ∧
      t.nextIsn.1.maxHalfOpenConnections = t.maxHalfOpenConnections := by
  unfold nextIsn
  dsimp only
  split_ifs <;> exact ⟨rfl, rfl⟩

theorem beginConnect_rejected (h : (t.beginConnect key now).2.accepted = false) :
    (t.beginConnect key now).1.connections = t.connections := by
  have hisn := (nextIsn_eq t).1
  unfold beginConnect at h ⊢
  split_ifs at h ⊢
  · rfl
  · rfl
  · rfl
  · generalize t.nextIsn = drawn at h hisn ⊢
    obtain ⟨t', isn⟩ := drawn
    cases isn with
    | none => exact hisn
    | some isn => cases h

theorem handle_rejected {memory : ℕ → Byte} {segment : TcpSegment} (hnone : t.find? key = none)
    (h : ∀ r, (t.handle memory key segment now).2.reply = some r → r.flags.syn = false) :
    (t.handle memory key segment now).1.connections = t.connections := by
  have hisn := (nextIsn_eq t).1
  unfold handle at h ⊢
  rw [hnone] at h ⊢
  dsimp only at h ⊢
  unfold handleUnknown at h ⊢
  split_ifs at h ⊢
  · rfl
  · rfl
  · rfl
  · unfold acceptSyn at h ⊢
    generalize parseTcpOptions segment.options = parsed at h ⊢
    cases parsed with
    | error error => rfl
    | ok options =>
      dsimp only at h ⊢
      split_ifs at h ⊢
      · rfl
      · rfl
      · generalize t.nextIsn = drawn at h hisn ⊢
        obtain ⟨t', isn⟩ := drawn
        cases isn with
        | none => exact hisn
        | some isn => cases h _ rfl

theorem beginConnect_full (h : t.atCapacity = true) (key : TcpConnectionKey) (now : TimePoint) :
    (t.beginConnect key now).2.accepted = false := by
  unfold beginConnect
  split_ifs
  · rfl
  · rfl
  · rfl

theorem acceptSyn_full (h : t.atCapacity = true) (key : TcpConnectionKey) (segment : TcpSegment)
    (now : TimePoint) : (t.acceptSyn key segment now).2.reply = none := by
  unfold acceptSyn
  split
  · rfl
  · split_ifs
    · rfl
    · rfl

theorem handle_full (h : t.atCapacity = true) (hnone : t.find? key = none) (memory : ℕ → Byte)
    (segment : TcpSegment) (now : TimePoint) :
    ∀ r, (t.handle memory key segment now).2.reply = some r → r.flags.syn = false := by
  rw [handle, hnone]
  unfold handleUnknown
  split_ifs
  · simp
  · rintro r ⟨rfl⟩
    unfold makeClosedPortReset
    split <;> rfl
  · rintro r ⟨rfl⟩
    unfold makeClosedPortReset
    split <;> rfl
  · intro r hr
    simp [acceptSyn_full h] at hr

theorem apply_creates (t : TcpConnectionTable) (op : Op) :
    (∀ key, t.find? key = none → (t.apply op).find? key = none) ∨
    t.atCapacity = false ∧ ∃ k, ∀ key, key ≠ k → (t.apply op).find? key = t.find? key := by
  -- A key that the call is not about keeps what it had.
  have hother : ∀ k, (∀ key, key ≠ k → t.eventFor key op = none) →
      ∀ key, key ≠ k → (t.apply op).find? key = t.find? key := by
    intro k hevent key hkey
    rcases t.apply_key op key with ⟨-, hsame⟩ | ⟨e, hsome, -⟩
    · exact hsame
    · simp [hevent key hkey] at hsome
  have hmissing : ∀ k, (∀ key, key ≠ k → t.eventFor key op = none) →
      (t.find? k = none → (t.apply op).find? k = none) →
      ∀ key, t.find? key = none → (t.apply op).find? key = none := by
    intro k hevent hk key hnone
    by_cases hkey : key = k
    · rw [hkey] at hnone ⊢
      exact hk hnone
    · rwa [hother k hevent key hkey]
  cases op with
  | beginConnect k now =>
    have hevent : ∀ key, key ≠ k → t.eventFor key (.beginConnect k now) = none :=
      fun key hkey => if_neg hkey.symm
    cases hfull : t.atCapacity with
    | false => exact .inr ⟨rfl, k, hother k hevent⟩
    | true =>
      refine .inl (hmissing k hevent fun hnone => ?_)
      rwa [apply, find?, beginConnect_rejected (beginConnect_full hfull k now)]
  | handle memory k segment now =>
    have hevent : ∀ key, key ≠ k → t.eventFor key (.handle memory k segment now) = none :=
      fun key hkey => if_neg hkey.symm
    cases hfull : t.atCapacity with
    | false => exact .inr ⟨rfl, k, hother k hevent⟩
    | true =>
      refine .inl (hmissing k hevent fun hnone => ?_)
      rwa [apply, find?, handle_rejected hnone (handle_full hfull hnone memory segment now)]
  | makeOutgoingData k payload now =>
    refine .inl (hmissing k (fun key hkey => if_neg hkey.symm) fun hnone => ?_)
    simp only [apply, makeOutgoingData, hnone]
    split_ifs <;> exact hnone
  | beginClose k now =>
    refine .inl (hmissing k (fun key hkey => if_neg hkey.symm) fun hnone => ?_)
    simp only [apply, beginClose, hnone]
  | pollPersistProbes now =>
    refine .inl fun key hnone => ?_
    rw [apply, find?_pollPersistProbes, hnone]
    rfl
  | pollRetransmissions now =>
    refine .inl fun key hnone => ?_
    rw [apply, find?_pollRetransmissions, hnone]
    rfl

theorem apply_limits (t : TcpConnectionTable) (op : Op) :
    (t.apply op).maxConnections = t.maxConnections ∧
      (t.apply op).maxHalfOpenConnections = t.maxHalfOpenConnections := by
  obtain ⟨hmax, hhalf⟩ := t.nextIsn_limits
  cases op with
  | beginConnect k now =>
    unfold apply beginConnect
    dsimp only
    split_ifs
    · exact ⟨rfl, rfl⟩
    · exact ⟨rfl, rfl⟩
    · exact ⟨rfl, rfl⟩
    · generalize t.nextIsn = drawn at hmax hhalf ⊢
      obtain ⟨t', isn⟩ := drawn
      cases isn with
      | none | some isn => exact ⟨hmax, hhalf⟩
  | handle memory k segment now =>
    unfold apply handle
    dsimp only
    cases t.find? k with
    | some c => exact ⟨rfl, rfl⟩
    | none =>
      unfold handleUnknown
      split_ifs
      · exact ⟨rfl, rfl⟩
      · exact ⟨rfl, rfl⟩
      · exact ⟨rfl, rfl⟩
      · unfold acceptSyn
        cases parseTcpOptions segment.options with
        | error error => exact ⟨rfl, rfl⟩
        | ok options =>
          dsimp only
          split_ifs
          · exact ⟨rfl, rfl⟩
          · exact ⟨rfl, rfl⟩
          · generalize t.nextIsn = drawn at hmax hhalf ⊢
            obtain ⟨t', isn⟩ := drawn
            cases isn with
            | none | some isn => exact ⟨hmax, hhalf⟩
  | makeOutgoingData k payload now =>
    unfold apply makeOutgoingData
    dsimp only
    split_ifs
    · exact ⟨rfl, rfl⟩
    · exact ⟨rfl, rfl⟩
    · cases t.find? k <;> exact ⟨rfl, rfl⟩
  | beginClose k now =>
    unfold apply beginClose
    dsimp only
    cases t.find? k <;> exact ⟨rfl, rfl⟩
  | pollPersistProbes now | pollRetransmissions now => exact ⟨rfl, rfl⟩

end TcpConnectionTable

/-! ## Runs -/

/-- Both counts are within the limits. -/
structure WithinLimits (t : TcpConnectionTable) : Prop where
  connections : t.count (fun _ => true) ≤ t.maxConnections
  halfOpen : t.count TcpConnectionTable.isHalfOpen ≤ t.maxHalfOpenConnections

open TcpConnectionTable

theorem Run.kept_isHalfOpen (hs : Reachable s) {c' : Connection} (hc : s.table.find? key = some c)
    (hc' : (s.table.apply op).find? key = some c') (hopen : isHalfOpen c' = true) :
    isHalfOpen c = true := by
  rcases s.table.apply_key op key with ⟨-, hsame⟩ | ⟨e, -, hstep⟩
  · obtain rfl : c' = c := Option.some.inj (hc'.symm.trans (hsame.trans hc))
    exact hopen
  · rw [hc, hc'] at hstep
    obtain ⟨isn, hconn, -⟩ := (hs.keyInv key).conn
    by_contra hnot
    have hsync : c.state.synchronized = true := by simpa [isHalfOpen] using hnot
    have hsync' := ((hconn c hc).ok.step hstep).synchronized_after hsync
    simp [isHalfOpen, hsync'] at hopen

theorem WithinLimits.step (hs : Reachable s) (h : WithinLimits s.table) (op : Op) :
    WithinLimits (s.table.apply op) := by
  obtain ⟨hmax, hhalf⟩ := s.table.apply_limits op
  -- A property that a connection does not acquire is counted at most once more than before.
  have hcount : ∀ (P : Connection → Bool) (bound : ℕ), s.table.count P ≤ bound →
      (s.table.atCapacity = false → s.table.count P < bound) →
      (∀ key c c', s.table.find? key = some c → (s.table.apply op).find? key = some c' →
        P c' = true → P c = true) →
      (s.table.apply op).count P ≤ bound := by
    intro P bound hle hroom hkept
    have hold : ∀ key c', (s.table.find? key = none → (s.table.apply op).find? key = none) →
        (s.table.apply op).find? key = some c' → P c' = true →
        ∃ c, s.table.find? key = some c ∧ P c = true := by
      intro key c' hnone hc' hP
      cases hc : s.table.find? key with
      | none =>
        simp [hnone hc] at hc'
      | some c => exact ⟨c, rfl, hkept key c c' hc hc' hP⟩
    rcases s.table.apply_creates op with hnothing | ⟨hfree, k, hothers⟩
    · exact (count_le fun key c' => hold key c' (hnothing key)).trans hle
    · refine (count_le_succ k fun key c' hkey => hold key c' fun hnone => ?_).trans (hroom hfree)
      rwa [hothers key hkey]
  have hroom : s.table.atCapacity = false → s.table.count (fun _ => true) < s.table.maxConnections ∧
        s.table.count isHalfOpen < s.table.maxHalfOpenConnections := by
    intro hfree
    rw [count_true, ← halfOpenCount_eq]
    simpa [atCapacity] using hfree
  refine ⟨?_, ?_⟩
  · rw [hmax]
    exact hcount _ _ h.connections (fun hfree => (hroom hfree).1) fun _ _ _ _ _ _ => rfl
  · rw [hhalf]
    exact hcount _ _ h.halfOpen (fun hfree => (hroom hfree).2) fun key c c' hc hc' =>
      hs.kept_isHalfOpen hc hc'

theorem Run.withinLimits (hs : Reachable s) : WithinLimits s.table := by
  induction hs with
  | start t ht =>
    have hnone : ∀ P, t.count P = 0 := by
      intro P
      rw [← length_keysWith, length_eq_zero_iff, eq_nil_iff_forall_not_mem]
      intro key hkey
      obtain ⟨c, hc, -⟩ := mem_keysWith.1 hkey
      simp [find?_empty ht] at hc
    refine ⟨?_, ?_⟩
    · rw [hnone]
      exact Nat.zero_le _
    · rw [hnone]
      exact Nat.zero_le _
  | step s op hrun _ ih => exact ih.step hrun op

theorem Traced.replay_limits (ops : List Op) :
    ∀ s : Traced, (s.replay ops).table.maxConnections = s.table.maxConnections ∧
      (s.replay ops).table.maxHalfOpenConnections = s.table.maxHalfOpenConnections := by
  induction ops with
  | nil => exact fun _ => ⟨rfl, rfl⟩
  | cons op ops ih =>
    intro s
    obtain ⟨hmax, hhalf⟩ := ih (s.step op)
    obtain ⟨hmax', hhalf'⟩ := s.table.apply_limits op
    exact ⟨hmax.trans hmax', hhalf.trans hhalf'⟩

/-! ## Two tables with the same connection -/

theorem Traced.step_at_none (hop : performAt key c op = none) : (s.step op).at key = s.at key := by
  have hevent : s.table.eventFor key op = none := by
    cases op with
    | beginConnect k now | handle memory k segment now =>
      simp only [performAt, ite_eq_right_iff, reduceCtorEq, imp_false] at hop
      exact if_neg hop
    | makeOutgoingData k payload now =>
      simp only [performAt] at hop
      split_ifs at hop with hk
      exact if_neg hk
    | beginClose k now =>
      simp only [performAt, ite_eq_right_iff, reduceCtorEq, imp_false] at hop
      exact if_neg hop
    | pollPersistProbes now | pollRetransmissions now => cases hop
  rcases s.table.apply_key op key with ⟨-, hsame⟩ | ⟨e, hsome, -⟩
  · simp only [Traced.at, Traced.step, hevent, hsame]
    rfl
  · simp [hevent] at hsome

theorem Traced.step_at_congr {s' : Traced} (hsome : (s.table.find? key).isSome = true)
    (hsame : s'.at key = s.at key) (op : Op) : (s'.step op).at key = (s.step op).at key := by
  obtain ⟨c, hc⟩ := Option.isSome_iff_exists.1 hsome
  have hat : s.at key = (s.history key, some c) := by rw [Traced.at, hc]
  cases hop : performAt key c op with
  | none => rw [Traced.step_at_none hop, Traced.step_at_none hop, hsame]
  | some outcome =>
    obtain ⟨e, after⟩ := outcome
    rw [Traced.step_at hat hop, Traced.step_at (hsame.trans hat) hop]

theorem Traced.replay_at_congr (key : TcpConnectionKey) (ops : List Op) :
    ∀ {s s' : Traced}, s'.at key = s.at key →
    (∀ n < ops.length, ((s.replay (ops.take n)).table.find? key).isSome = true) →
    (s'.replay ops).at key = (s.replay ops).at key := by
  induction ops with
  | nil => exact fun hsame _ => hsame
  | cons op ops ih =>
    intro s s' hsame halive
    have hsome : (s.table.find? key).isSome = true := halive 0 (Nat.zero_lt_succ _)
    refine ih (Traced.step_at_congr hsome hsame op) fun n hn => ?_
    exact halive (n + 1) (Nat.succ_lt_succ hn)

/-- What the calls make of a table. -/
def TcpConnectionTable.after (t : TcpConnectionTable) (calls : List Op) : Traced :=
  Traced.replay ⟨t, fun _ => []⟩ calls

/-- **Connection limits.** Any calls on a table that was empty at first. The last part compares the
    run with any other that has the same connection for the key, such as one without limits. -/
theorem connection_limits {t : TcpConnectionTable} (ht : t.connections = ∅) (calls : List Op) :
    (t.after calls).table.connections.size ≤ t.maxConnections ∧
    (t.after calls).table.halfOpenCount ≤ t.maxHalfOpenConnections ∧
    (∀ key now, ((t.after calls).table.beginConnect key now).2.accepted = false →
      ((t.after calls).table.beginConnect key now).1.connections =
        (t.after calls).table.connections) ∧
    (∀ memory key segment now, (t.after calls).table.find? key = none →
      (∀ r, ((t.after calls).table.handle memory key segment now).2.reply = some r →
        r.flags.syn = false) →
      ((t.after calls).table.handle memory key segment now).1.connections =
        (t.after calls).table.connections) ∧
    ∀ key (other : Traced) (more : List Op), other.at key = (t.after calls).at key →
      (∀ n < more.length, (((t.after calls).replay (more.take n)).table.find? key).isSome = true) →
      (other.replay more).at key = ((t.after calls).replay more).at key := by
  have hs : Reachable (t.after calls) := Reachable.replay (.start t ht) calls
  obtain ⟨hmax, hhalf⟩ := Traced.replay_limits calls ⟨t, fun _ => []⟩
  obtain ⟨hconnections, hopen⟩ := hs.withinLimits
  refine ⟨?_, ?_, fun key now => beginConnect_rejected,
    fun memory key segment now hnone => handle_rejected hnone,
    fun key other more hsame halive => Traced.replay_at_congr key more hsame halive⟩
  · rw [← count_true]
    exact hconnections.trans hmax.le
  · rw [halfOpenCount_eq]
    exact hopen.trans hhalf.le

/-- The run with other limits, from some point on. -/
def Traced.withLimits (s : Traced) (maxConnections maxHalfOpenConnections : ℕ) : Traced :=
  { s with
    table := { s.table with
      maxConnections := maxConnections
      maxHalfOpenConnections := maxHalfOpenConnections } }

/-- An active open, completed in the table and in one with room for a million connections. -/
theorem connection_limits_example :
    (exampleTable.after [.beginConnect exampleKey 0]).table.halfOpenCount ≤ 256 ∧
    (((exampleTable.after [.beginConnect exampleKey 0]).withLimits 1000000 1000000).replay
        [.handle noMemory exampleKey (exampleSynAck []) 0]).at exampleKey =
      ((exampleTable.after [.beginConnect exampleKey 0]).replay
        [.handle noMemory exampleKey (exampleSynAck []) 0]).at exampleKey := by
  obtain ⟨-, hopen, -, -, hsame⟩ :=
    connection_limits (t := exampleTable) rfl [.beginConnect exampleKey 0]
  refine ⟨hopen, hsame exampleKey _ _ rfl fun n hn => ?_⟩
  obtain rfl : n = 0 := Nat.lt_one_iff.1 hn
  exact congrArg Option.isSome (congrArg Prod.snd exampleStart_connect)

end Wirestack
