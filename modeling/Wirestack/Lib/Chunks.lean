import Wirestack.Lib.Intervals

set_option autoImplicit false

/-! # A buffer of chunks with holes

A sequence that arrives out of order is buffered as a list of chunks, each a run of consecutive
elements at an offset. The buffer stands for a partial map from offsets to elements (`Holds`), and it
is kept `Canonical`: no empty chunk, ascending, at least one hole between two chunks.

`insert` adds a run to the buffer. What is buffered already is never overwritten; of the rest, whole
gaps are stored as long as the buffer has fewer than `cap` chunks; then the chunks are sorted and
adjacent ones are merged. The results say what it does to the partial map (`holds_of_holds_insert`,
`holds_insert_of_holds`, `holds_insert_first`), that a gap is stored whole or dropped whole
(`holds_insert_gap`) and that it keeps the canonical form (`Canonical.insert`). -/

namespace Chunks

open Intervals List

variable {o first cap n : ℕ} {g : ℕ × ℕ}

variable {α : Type}

structure Chunk (α : Type) where
  start : ℕ
  data : List α

def Chunk.stop (c : Chunk α) : ℕ := c.start + c.data.length

def Chunk.range (c : Chunk α) : ℕ × ℕ := (c.start, c.stop)

/-- The chunk has element `b` at offset `o`. -/
def Chunk.Has (c : Chunk α) (o : ℕ) (b : α) : Prop := c.start ≤ o ∧ c.data[o - c.start]? = some b

def Holds (cs : List (Chunk α)) (o : ℕ) (b : α) : Prop := ∃ c ∈ cs, c.Has o b

/-- Some chunk extends over offset `o`. -/
def Covers (cs : List (Chunk α)) (o : ℕ) : Prop := ∃ c ∈ cs, Within c.range o

structure Canonical (cs : List (Chunk α)) : Prop where
  nonempty : ∀ c ∈ cs, c.data ≠ []
  apart : cs.Pairwise fun a b => a.stop < b.start

theorem Chunk.start_lt_stop {c : Chunk α} (h : c.data ≠ []) : c.start < c.stop := by
  have := length_pos_iff.2 h
  unfold stop
  omega

theorem Chunk.within_of_has {c : Chunk α} {b : α} (h : c.Has o b) : Within c.range o := by
  obtain ⟨hlo, hget⟩ := h
  obtain ⟨hlt, -⟩ := List.getElem?_eq_some_iff.1 hget
  refine ⟨hlo, ?_⟩
  simp only [range, stop]
  omega

theorem Chunk.exists_has {c : Chunk α} (h : Within c.range o) : ∃ b, c.Has o b := by
  obtain ⟨hlo, hhi⟩ := h
  simp only [range, stop] at hlo hhi
  exact ⟨c.data[o - c.start], hlo, getElem?_eq_getElem (by omega)⟩

theorem covers_iff_holds {cs : List (Chunk α)} : Covers cs o ↔ ∃ b, Holds cs o b := by
  constructor
  · rintro ⟨c, hc, ho⟩
    obtain ⟨b, hb⟩ := Chunk.exists_has ho
    exact ⟨b, c, hc, hb⟩
  · rintro ⟨b, c, hc, hb⟩
    exact ⟨c, hc, Chunk.within_of_has hb⟩

theorem holds_cons {c : Chunk α} {cs : List (Chunk α)} {b : α} :
    Holds (c :: cs) o b ↔ c.Has o b ∨ Holds cs o b := by
  simp only [Holds, mem_cons, exists_eq_or_imp]

theorem holds_append {cs ds : List (Chunk α)} {b : α} :
    Holds (cs ++ ds) o b ↔ Holds cs o b ∨ Holds ds o b := by
  simp only [Holds, mem_append, or_and_right, exists_or]

theorem holds_perm {cs ds : List (Chunk α)} (h : cs.Perm ds) {b : α} :
    Holds cs o b ↔ Holds ds o b := by
  simp only [Holds, h.mem_iff]

theorem Canonical.tail {c : Chunk α} {cs : List (Chunk α)} (h : Canonical (c :: cs)) :
    Canonical cs :=
  ⟨fun d hd => h.nonempty d (mem_cons_of_mem _ hd), (pairwise_cons.1 h.apart).2⟩

theorem Canonical.head_lt {c : Chunk α} {cs : List (Chunk α)} (h : Canonical (c :: cs)) :
    ∀ d ∈ cs, c.stop < d.start :=
  (pairwise_cons.1 h.apart).1

theorem Canonical.holds_unique {cs : List (Chunk α)} (h : Canonical cs) {b b' : α}
    (hb : Holds cs o b) (hb' : Holds cs o b') : b = b' := by
  induction cs with
  | nil => simp [Holds] at hb
  | cons c rest ih =>
    rw [holds_cons] at hb hb'
    have hfar : ∀ {b : α}, c.Has o b → ∀ {b' : α}, ¬ Holds rest o b' := by
      rintro b hc b' ⟨d, hd, hdo⟩
      have h₁ := Chunk.within_of_has hc
      have h₂ := Chunk.within_of_has hdo
      have h₃ := h.head_lt d hd
      simp only [Within, Chunk.range] at h₁ h₂
      omega
    rcases hb with hb | hb <;> rcases hb' with hb' | hb'
    · have := hb.2.symm.trans hb'.2
      exact Option.some.inj this
    · exact absurd hb' (hfar hb)
    · exact absurd hb (hfar hb')
    · exact ih h.tail hb hb'

/-! ## Coalescing -/

def coalesceInto (back : Chunk α) : List (Chunk α) → List (Chunk α)
  | [] => [back]
  | c :: rest =>
    if back.stop = c.start then coalesceInto { back with data := back.data ++ c.data } rest
    else back :: coalesceInto c rest

def coalesce : List (Chunk α) → List (Chunk α)
  | [] => []
  | c :: rest => coalesceInto c rest

theorem Chunk.has_append {back c : Chunk α} (h : back.stop = c.start) (o : ℕ) (b : α) :
    Chunk.Has { back with data := back.data ++ c.data } o b ↔ back.Has o b ∨ c.Has o b := by
  simp only [Has, stop] at h ⊢
  by_cases hlt : o - back.start < back.data.length
  · rw [getElem?_append_left hlt]
    constructor
    · exact .inl
    · rintro (hb | ⟨hc, -⟩)
      · exact hb
      · omega
  · have hge : back.data.length ≤ o - back.start := by omega
    rw [getElem?_append_right hge]
    constructor
    · rintro ⟨hlo, hget⟩
      obtain ⟨hlen, -⟩ := List.getElem?_eq_some_iff.1 hget
      refine .inr ⟨by omega, ?_⟩
      rwa [show o - c.start = o - back.start - back.data.length by omega]
    · rintro (⟨hlo, hget⟩ | ⟨hlo, hget⟩)
      · obtain ⟨hlen, -⟩ := List.getElem?_eq_some_iff.1 hget
        omega
      · refine ⟨by omega, ?_⟩
        rwa [show o - back.start - back.data.length = o - c.start by omega]

theorem holds_coalesceInto (cs : List (Chunk α)) (o : ℕ) (b : α) :
    ∀ back : Chunk α, Holds (coalesceInto back cs) o b ↔ back.Has o b ∨ Holds cs o b := by
  induction cs with
  | nil => intro back; simp [coalesceInto, Holds]
  | cons c rest ih =>
    intro back
    rw [coalesceInto]
    split_ifs with hadj
    · rw [ih, Chunk.has_append hadj, holds_cons, or_assoc]
    · rw [holds_cons, ih, holds_cons]

theorem holds_coalesce (cs : List (Chunk α)) (o : ℕ) (b : α) :
    Holds (coalesce cs) o b ↔ Holds cs o b := by
  cases cs with
  | nil => rfl
  | cons c rest => rw [coalesce, holds_coalesceInto, holds_cons]

theorem sum_length_coalesceInto (cs : List (Chunk α)) :
    ∀ back : Chunk α, ((coalesceInto back cs).map fun c => c.data.length).sum =
      back.data.length + (cs.map fun c => c.data.length).sum := by
  induction cs with
  | nil => intro back; rfl
  | cons c cs ih =>
    intro back
    rw [coalesceInto, map_cons, sum_cons]
    split_ifs
    · rw [ih, length_append, Nat.add_assoc]
    · rw [map_cons, sum_cons, ih]

theorem sum_length_coalesce (cs : List (Chunk α)) :
    ((coalesce cs).map fun c => c.data.length).sum = (cs.map fun c => c.data.length).sum := by
  cases cs with
  | nil => rfl
  | cons c cs => exact sum_length_coalesceInto cs c

theorem length_coalesceInto_le (cs : List (Chunk α)) :
    ∀ back : Chunk α, (coalesceInto back cs).length ≤ cs.length + 1 := by
  induction cs with
  | nil => intro back; simp [coalesceInto]
  | cons c rest ih =>
    intro back
    rw [coalesceInto]
    split_ifs
    · exact (ih _).trans (by simp)
    · simpa using ih c

theorem length_coalesce_le (cs : List (Chunk α)) : (coalesce cs).length ≤ cs.length := by
  cases cs with
  | nil => exact le_rfl
  | cons c rest => exact length_coalesceInto_le rest c

/-- Ascending chunks that may touch but do not overlap. -/
structure Ascending (cs : List (Chunk α)) : Prop where
  nonempty : ∀ c ∈ cs, c.data ≠ []
  ordered : cs.Pairwise fun a b => a.stop ≤ b.start

theorem coalesceInto_start_le (cs : List (Chunk α)) :
    ∀ back : Chunk α, (∀ c ∈ cs, back.start ≤ c.start) → cs.Pairwise (fun a b => a.stop ≤ b.start) →
    ∀ d ∈ coalesceInto back cs, back.start ≤ d.start := by
  induction cs with
  | nil =>
    intro back _ _ d hd
    rw [coalesceInto, mem_singleton] at hd
    rw [hd]
  | cons c rest ih =>
    intro back hle hord d hd
    obtain ⟨hc, hrest⟩ := pairwise_cons.1 hord
    rw [coalesceInto] at hd
    split_ifs at hd with hadj
    · exact ih { back with data := back.data ++ c.data }
        (fun e he => hle e (mem_cons_of_mem _ he)) hrest d hd
    · rcases mem_cons.1 hd with rfl | hd
      · exact le_rfl
      · refine (hle c (mem_cons_self ..)).trans (ih c (fun e he => ?_) hrest d hd)
        have := hc e he
        unfold Chunk.stop at this
        omega

theorem Canonical.coalesceInto (cs : List (Chunk α)) :
    ∀ back : Chunk α, Ascending (back :: cs) → Canonical (coalesceInto back cs) := by
  induction cs with
  | nil =>
    intro back h
    exact ⟨h.nonempty, pairwise_singleton _ _⟩
  | cons c rest ih =>
    intro back h
    obtain ⟨hback, hord⟩ := pairwise_cons.1 h.ordered
    obtain ⟨hc, hrest⟩ := pairwise_cons.1 hord
    have hne : ∀ e ∈ rest, e.data ≠ [] := fun e he => h.nonempty e (by simp [he])
    rw [Chunks.coalesceInto]
    split_ifs with hadj
    · -- The merged chunk ends where `c` ended, so the order of what follows is kept.
      apply ih
      constructor
      · rw [forall_mem_cons]
        exact ⟨by simp [h.nonempty back (by simp)], hne⟩
      · refine pairwise_cons.2 ⟨fun e he => ?_, hrest⟩
        have := hc e he
        simp only [Chunk.stop, length_append] at this hadj ⊢
        omega
    · have hcne := h.nonempty c (by simp)
      have hcan := ih c ⟨forall_mem_cons.2 ⟨hcne, hne⟩, hord⟩
      have hge := coalesceInto_start_le rest c (fun e he => by
        have := hc e he
        unfold Chunk.stop at this
        omega) hrest
      constructor
      · rw [forall_mem_cons]
        exact ⟨h.nonempty back (by simp), hcan.nonempty⟩
      · refine pairwise_cons.2 ⟨fun d hd => ?_, hcan.apart⟩
        have h₁ := hback c (by simp)
        have h₂ := hge d hd
        omega

theorem Canonical.coalesce {cs : List (Chunk α)} (h : Ascending cs) : Canonical (coalesce cs) := by
  cases cs with
  | nil => exact ⟨by simp [Chunks.coalesce], by simp [Chunks.coalesce]⟩
  | cons c rest => exact Canonical.coalesceInto rest c h

/-! ## Storing gaps -/

/-- The part of a run that starts at offset `first` which fills the gap `g`. -/
def piece (first : ℕ) (run : List α) (g : ℕ × ℕ) : Chunk α :=
  ⟨g.1, (run.drop (g.1 - first)).take (g.2 - g.1)⟩

/-- Append one chunk for each non-empty gap, until the buffer has `cap` chunks. -/
def storeGaps (cap first : ℕ) (run : List α) :
    List (ℕ × ℕ) → List (Chunk α) → List (Chunk α)
  | [], cs => cs
  | g :: gaps, cs =>
    if g.1 ≥ g.2 then storeGaps cap first run gaps cs
    else if cs.length ≥ cap then cs
    else storeGaps cap first run gaps (cs ++ [piece first run g])

theorem storeGaps_eq (cap first : ℕ) (run : List α) (gaps : List (ℕ × ℕ)) :
    ∀ cs : List (Chunk α), (∀ g ∈ gaps, g.1 < g.2) →
    storeGaps cap first run gaps cs
      = cs ++ (gaps.take (cap - cs.length)).map (piece first run) := by
  induction gaps with
  | nil => intro cs _; simp [storeGaps]
  | cons g gaps ih =>
    intro cs hne
    have hg := hne g (mem_cons_self ..)
    rw [storeGaps, if_neg (by omega)]
    split_ifs with hcap
    · rw [show cap - cs.length = 0 by omega]
      simp
    · obtain ⟨n, hn⟩ : ∃ n, cap - cs.length = n + 1 := ⟨cap - cs.length - 1, by omega⟩
      rw [ih _ (fun g' hg' => hne g' (mem_cons_of_mem _ hg')), hn, take_succ_cons,
        map_cons, length_append, length_singleton,
        show cap - (cs.length + 1) = n by omega]
      simp

theorem piece_stop {run : List α} (hlo : first ≤ g.1) (hlt : g.1 < g.2)
    (hhi : g.2 ≤ first + run.length) : (piece first run g).stop = g.2 := by
  simp only [Chunk.stop, piece, length_take, length_drop]
  omega

theorem piece_has {run : List α} (hlo : first ≤ g.1) {b : α} :
    (piece first run g).Has o b ↔ Within g o ∧ run[o - first]? = some b := by
  simp only [Chunk.Has, piece, Within, getElem?_take, getElem?_drop]
  constructor
  · rintro ⟨hgo, hget⟩
    split_ifs at hget with hlt
    rw [show g.1 - first + (o - g.1) = o - first by omega] at hget
    exact ⟨⟨hgo, by omega⟩, hget⟩
  · rintro ⟨⟨hgo, hhi⟩, hget⟩
    rw [if_pos (by omega), show g.1 - first + (o - g.1) = o - first by omega]
    exact ⟨hgo, hget⟩

/-! ## Insertion -/

/-- The offsets of a run that are not buffered yet, as maximal intervals. -/
def missing (cs : List (Chunk α)) (first : ℕ) (run : List α) : List (ℕ × ℕ) :=
  subtractAll (cs.map Chunk.range) [(first, first + run.length)]

def insert (cap : ℕ) (cs : List (Chunk α)) (first : ℕ) (run : List α) : List (Chunk α) :=
  coalesce ((storeGaps cap first run (missing cs first run) cs).insertionSort
    fun a b => a.start ≤ b.start)

section Insert

variable {cs : List (Chunk α)} (hcs : Canonical cs) {first : ℕ} {run : List α} (hrun : run ≠ [])

include hcs

theorem Canonical.ranges_nonempty : ∀ f ∈ cs.map Chunk.range, f.1 < f.2 := by
  intro f hf
  obtain ⟨c, hc, rfl⟩ := mem_map.1 hf
  exact Chunk.start_lt_stop (hcs.nonempty c hc)

theorem mem_missing (o : ℕ) : (∃ g ∈ missing cs first run, Within g o) ↔
    Within (first, first + run.length) o ∧ ¬ Covers cs o := by
  rw [missing, mem_subtractAll hcs.ranges_nonempty]
  simp only [mem_singleton, exists_eq_left, mem_map, forall_exists_index, and_imp,
    forall_apply_eq_imp_iff₂, Covers, not_exists, not_and]

include hrun

theorem missing_gaps : Gaps (missing cs first run) := by
  apply Gaps.subtractAll hcs.ranges_nonempty
  have := length_pos_iff.2 hrun
  exact ⟨by simpa using this, pairwise_singleton _ _⟩

theorem missing_bounds (hg : g ∈ missing cs first run) :
    first ≤ g.1 ∧ g.1 < g.2 ∧ g.2 ≤ first + run.length := by
  have hne := (missing_gaps hcs hrun).nonempty g hg
  have hlo := (mem_missing hcs g.1).1 ⟨g, hg, le_rfl, hne⟩
  have hhi := (mem_missing hcs (g.2 - 1)).1 ⟨g, hg, by omega, by omega⟩
  simp only [Within] at hlo hhi
  omega

theorem insert_eq (cap : ℕ) : insert cap cs first run = coalesce
    ((cs ++ ((missing cs first run).take (cap - cs.length)).map (piece first run)).insertionSort
      fun a b => a.start ≤ b.start) := by
  rw [insert, storeGaps_eq _ _ _ _ _ (missing_gaps hcs hrun).nonempty]

theorem holds_insert (cap o : ℕ) (b : α) : Holds (insert cap cs first run) o b ↔ Holds cs o b ∨
    (∃ g ∈ (missing cs first run).take (cap - cs.length), Within g o) ∧
      run[o - first]? = some b := by
  rw [insert_eq hcs hrun, holds_coalesce, holds_perm (perm_insertionSort _ _), holds_append]
  apply or_congr_right
  simp only [Holds, mem_map, exists_exists_and_eq_and]
  constructor
  · rintro ⟨g, hg, hb⟩
    obtain ⟨ho, hget⟩ := (piece_has (missing_bounds hcs hrun (mem_of_mem_take hg)).1).1 hb
    exact ⟨⟨g, hg, ho⟩, hget⟩
  · rintro ⟨⟨g, hg, ho⟩, hget⟩
    exact ⟨g, hg, (piece_has (missing_bounds hcs hrun (mem_of_mem_take hg)).1).2 ⟨ho, hget⟩⟩

theorem holds_insert_of_holds (cap : ℕ) {b : α} (h : Holds cs o b) :
    Holds (insert cap cs first run) o b :=
  (holds_insert hcs hrun cap o b).2 (.inl h)

theorem holds_of_holds_insert {b : α} (h : Holds (insert cap cs first run) o b) :
    Holds cs o b ∨ ¬ Covers cs o ∧ first ≤ o ∧ run[o - first]? = some b := by
  rcases (holds_insert hcs hrun cap o b).1 h with h | ⟨⟨g, hg, ho⟩, hget⟩
  · exact .inl h
  · obtain ⟨hin, hout⟩ := (mem_missing hcs o).1 ⟨g, mem_of_mem_take hg, ho⟩
    exact .inr ⟨hout, hin.1, hget⟩

theorem sum_length_insert (cap : ℕ) : ((insert cap cs first run).map fun c => c.data.length).sum =
      (cs.map fun c => c.data.length).sum +
        (((missing cs first run).take (cap - cs.length)).map fun g => g.2 - g.1).sum := by
  have hpieces : (((missing cs first run).take (cap - cs.length)).map (piece first run)).map
      (fun c => c.data.length) = ((missing cs first run).take (cap - cs.length)).map
        fun g => g.2 - g.1 := by
    rw [map_map]
    refine map_congr_left fun g hg => ?_
    obtain ⟨hlo, hlt, hhi⟩ := missing_bounds hcs hrun (mem_of_mem_take hg)
    simp only [Function.comp, piece, length_take, length_drop]
    omega
  rw [insert_eq hcs hrun, sum_length_coalesce,
    ((perm_insertionSort _ _).map _).sum_nat, map_append, sum_append, hpieces]

theorem holds_insert_first (hroom : cs.length < cap) (hfree : ¬ Covers cs first) {b : α}
    (hb : run[0]? = some b) : Holds (insert cap cs first run) first b := by
  have hlen := length_pos_iff.2 hrun
  have hmem : ∃ g ∈ missing cs first run, Within g first :=
    (mem_missing hcs first).2 ⟨⟨le_rfl, by dsimp only; omega⟩, hfree⟩
  obtain ⟨stop, rest, heq, hlt⟩ := (missing_gaps hcs hrun).head_of_le hmem
    fun g hg => (missing_bounds hcs hrun hg).1
  refine (holds_insert hcs hrun cap first b).2 (.inr ⟨⟨(first, stop), ?_, le_rfl, hlt⟩, ?_⟩)
  · obtain ⟨n, hn⟩ : ∃ n, cap - cs.length = n + 1 := ⟨cap - cs.length - 1, by omega⟩
    rw [heq, hn, take_succ_cons]
    exact mem_cons_self ..
  · simpa using hb

theorem mem_missing_iff (g : ℕ × ℕ) : g ∈ missing cs first run ↔
    MaximalIn (fun o => Within (first, first + run.length) o ∧ ¬ Covers cs o) g := by
  rw [(missing_gaps hcs hrun).mem_iff_maximalIn]
  simp only [mem_missing hcs]

theorem holds_insert_gap (cap : ℕ) (hg : g ∈ missing cs first run) :
    (∀ o b, Within g o → run[o - first]? = some b → Holds (insert cap cs first run) o b) ∨
      ∀ o, Within g o → ¬ Covers (insert cap cs first run) o := by
  by_cases hstored : g ∈ (missing cs first run).take (cap - cs.length)
  · left
    intro o b ho hget
    exact (holds_insert hcs hrun cap o b).2 (.inr ⟨⟨g, hstored, ho⟩, hget⟩)
  · right
    intro o ho hcovers
    obtain ⟨b, hb⟩ := covers_iff_holds.1 hcovers
    rcases (holds_insert hcs hrun cap o b).1 hb with hold | ⟨⟨g', hg', ho'⟩, -⟩
    · exact ((mem_missing hcs o).1 ⟨g, hg, ho⟩).2 (covers_iff_holds.2 ⟨b, hold⟩)
    · -- A stored gap with this element would be `g` itself.
      have heq := (missing_gaps hcs hrun).eq_of_reach hg (mem_of_mem_take hg')
        ⟨ho.1, ho.2.le⟩ ⟨ho'.1, ho'.2.le⟩
      rw [heq] at hstored
      exact hstored hg'

theorem holds_insert_of_room (hroom : cs.length + (missing cs first run).length ≤ cap) {b : α}
    (ho : first ≤ o) (hget : run[o - first]? = some b) (hfree : ¬ Covers cs o) :
    Holds (insert cap cs first run) o b := by
  obtain ⟨hlt, -⟩ := List.getElem?_eq_some_iff.1 hget
  have hmissing : ∃ g ∈ missing cs first run, Within g o :=
    (mem_missing hcs o).2 ⟨⟨ho, by dsimp only; omega⟩, hfree⟩
  refine (holds_insert hcs hrun cap o b).2 (.inr ⟨?_, hget⟩)
  rwa [List.take_of_length_le (by omega)]

theorem length_insert_le (hlen : cs.length ≤ cap) : (insert cap cs first run).length ≤ cap := by
  rw [insert_eq hcs hrun]
  refine (length_coalesce_le _).trans ?_
  rw [length_insertionSort, length_append, length_map, length_take]
  omega

theorem stored_disjoint (n : ℕ) :
    (cs ++ ((missing cs first run).take n).map (piece first run)).Pairwise
      fun a b => a.stop ≤ b.start ∨ b.stop ≤ a.start := by
  have hgaps : Gaps (missing cs first run) := missing_gaps hcs hrun
  rw [pairwise_append]
  refine ⟨hcs.apart.imp fun h => .inl h.le, ?_, ?_⟩
  · rw [pairwise_map]
    refine (hgaps.apart.sublist (take_sublist _ _)).imp_of_mem fun {a b} ha hb hab => ?_
    have hba := missing_bounds hcs hrun (mem_of_mem_take ha)
    left
    rw [piece_stop hba.1 hba.2.1 hba.2.2]
    exact hab.le
  · intro c hc d hd
    obtain ⟨g, hg, rfl⟩ := mem_map.1 hd
    have hg := mem_of_mem_take hg
    have hbg := missing_bounds hcs hrun hg
    rw [piece_stop hbg.1 hbg.2.1 hbg.2.2]
    by_contra hov
    -- The two intervals share the larger of their starts, which is missing and covered at once.
    have hcne := Chunk.start_lt_stop (hcs.nonempty c hc)
    have hstart : (piece first run g).start = g.1 := rfl
    rw [hstart] at hov
    have hmiss := (mem_missing hcs (max c.start g.1)).1 ⟨g, hg, by omega, by omega⟩
    exact hmiss.2 ⟨c, hc, ⟨by simp only [Chunk.range]; omega, by simp only [Chunk.range]; omega⟩⟩

theorem Canonical.insert (cap : ℕ) : Canonical (insert cap cs first run) := by
  rw [insert_eq hcs hrun]
  apply Canonical.coalesce
  set stored := cs ++ ((missing cs first run).take (cap - cs.length)).map (piece first run)
    with hstored
  have hne : ∀ c ∈ stored, c.data ≠ [] := by
    intro c hc
    rcases mem_append.1 hc with hc | hc
    · exact hcs.nonempty c hc
    · obtain ⟨g, hg, rfl⟩ := mem_map.1 hc
      have hbg := missing_bounds hcs hrun (mem_of_mem_take hg)
      rw [← length_pos_iff]
      simp only [piece, length_take, length_drop]
      omega
  constructor
  · intro c hc
    exact hne c ((mem_insertionSort _).1 hc)
  · have hsorted : (stored.insertionSort fun a b => a.start ≤ b.start).Pairwise
        fun a b => a.start ≤ b.start := by
      have : Std.Total fun a b : Chunk α => a.start ≤ b.start := ⟨fun a b => Nat.le_total _ _⟩
      have : IsTrans (Chunk α) fun a b => a.start ≤ b.start := ⟨fun a b c => Nat.le_trans⟩
      exact pairwise_insertionSort _ _
    have hdisj := ((perm_insertionSort (fun a b : Chunk α => a.start ≤ b.start)
      stored).pairwise_iff (fun h => h.symm)).2 (stored_disjoint hcs hrun _)
    refine (hsorted.and hdisj).imp_of_mem fun {a b} ha hb hab => ?_
    have hbne := Chunk.start_lt_stop (hne b ((mem_insertionSort _).1 hb))
    omega

end Insert

/-! ## Insertion in front -/

theorem Canonical.coalesceInto_eq {cs : List (Chunk α)} :
    ∀ {c : Chunk α}, Canonical (c :: cs) → Chunks.coalesceInto c cs = c :: cs := by
  induction cs with
  | nil => intro c _; rfl
  | cons d rest ih =>
    intro c h
    have := h.head_lt d (mem_cons_self ..)
    rw [Chunks.coalesceInto, if_neg (by omega), ih h.tail]

theorem Canonical.coalesce_eq {cs : List (Chunk α)} (h : Canonical cs) :
    Chunks.coalesce cs = cs := by
  cases cs with
  | nil => rfl
  | cons c rest => exact h.coalesceInto_eq

theorem Canonical.insertionSort_front {cs : List (Chunk α)} (h : Canonical cs) {c : Chunk α}
    (hbefore : ∀ d ∈ cs, c.start < d.start) :
    (cs ++ [c]).insertionSort (fun a b => a.start ≤ b.start) = c :: cs := by
  induction cs with
  | nil => rfl
  | cons d rest ih =>
    have hd := hbefore d (mem_cons_self ..)
    rw [cons_append, insertionSort_cons,
      ih h.tail fun e he => hbefore e (mem_cons_of_mem _ he), orderedInsert_cons,
      if_neg (by omega)]
    cases rest with
    | nil => rfl
    | cons e rest =>
      have := h.head_lt e (mem_cons_self ..)
      have := Chunk.start_lt_stop (h.nonempty d (mem_cons_self ..))
      rw [orderedInsert_cons, if_pos (by omega)]

theorem insert_front {cs : List (Chunk α)} (hcs : Canonical cs) {run : List α} (hrun : run ≠ [])
    (hroom : cs.length < cap) (hbefore : ∀ c ∈ cs, first + run.length < c.start) :
    insert cap cs first run = ⟨first, run⟩ :: cs := by
  have hmissing : missing cs first run = [(first, first + run.length)] := by
    unfold missing
    induction cs with
    | nil => rfl
    | cons c rest ih =>
      have hc := hbefore c (mem_cons_self ..)
      have hone : [(first, first + run.length)].flatMap (subtractRange c.range) =
          [(first, first + run.length)] := by
        simp only [flatMap_cons, flatMap_nil, append_nil, subtractRange, Chunk.range]
        rw [if_pos (.inr hc.le)]
      rw [map_cons, subtractAll, foldl_cons, hone]
      exact ih hcs.tail (by simp only [length_cons] at hroom; omega)
        fun d hd => hbefore d (mem_cons_of_mem _ hd)
  have hpiece : piece first run (first, first + run.length) = ⟨first, run⟩ := by simp [piece]
  have hcan : Canonical (⟨first, run⟩ :: cs) :=
    ⟨forall_mem_cons.2 ⟨hrun, hcs.nonempty⟩, pairwise_cons.2 ⟨hbefore, hcs.apart⟩⟩
  rw [insert_eq hcs hrun, hmissing, List.take_of_length_le (by simp; omega), map_singleton,
    hpiece, hcs.insertionSort_front fun d hd => by
      have := hbefore d hd
      dsimp only
      omega]
  exact hcan.coalesceInto_eq

/-! ## Moving the origin -/

/-- The chunk seen from an origin `n` further on. -/
def Chunk.shift (n : ℕ) (c : Chunk α) : Chunk α := ⟨c.start - n, c.data⟩

theorem Chunk.shift_stop {c : Chunk α} (h : n ≤ c.start) : (c.shift n).stop = c.stop - n := by
  simp only [shift, stop]
  omega

theorem Canonical.shift {cs : List (Chunk α)} (h : Canonical cs) (hle : ∀ c ∈ cs, n ≤ c.start) :
    Canonical (cs.map (Chunk.shift n)) := by
  constructor
  · intro c hc
    obtain ⟨d, hd, rfl⟩ := mem_map.1 hc
    exact h.nonempty d hd
  · rw [pairwise_map]
    refine h.apart.imp_of_mem fun {a b} ha hb hab => ?_
    have := hle b hb
    have := Chunk.shift_stop (hle a ha)
    have : (b.shift n).start = b.start - n := rfl
    have := hle a ha
    have : a.start ≤ a.stop := Nat.le_add_right _ _
    omega

theorem holds_shift {cs : List (Chunk α)} (hle : ∀ c ∈ cs, n ≤ c.start) (o : ℕ) (b : α) :
    Holds (cs.map (Chunk.shift n)) o b ↔ Holds cs (n + o) b := by
  simp only [Holds, mem_map, exists_exists_and_eq_and]
  refine exists_congr fun c => and_congr_right fun hc => ?_
  have := hle c hc
  simp only [Chunk.Has, Chunk.shift]
  rw [show o - (c.start - n) = n + o - c.start by omega]
  exact and_congr_left fun _ => by omega

/-! ## Bounds -/

theorem Canonical.sum_length_le {cs : List (Chunk α)} (h : Canonical cs) {lo hi : ℕ}
    (hb : ∀ c ∈ cs, lo ≤ c.start ∧ c.stop ≤ hi) :
    (cs.map fun c => c.data.length).sum ≤ hi - lo := by
  have hranges : Gaps (cs.map Chunk.range) := ⟨h.ranges_nonempty, pairwise_map.2 h.apart⟩
  have hsum := hranges.sum_le (forall_mem_map.2 hb)
  rw [map_map] at hsum
  refine le_of_eq_of_le (congrArg sum (map_congr_left fun c _ => ?_)) hsum
  exact (Nat.add_sub_cancel_left ..).symm

end Chunks
