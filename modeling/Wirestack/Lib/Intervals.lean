import Mathlib.Algebra.Ring.Nat
import Mathlib.Data.List.Sort

set_option autoImplicit false

/-! # Subtracting and merging intervals

Half-open intervals of natural numbers are pairs `(start, stop)`. `subtractRange f gap` is what is
left of `gap` once `f` is taken out of it, and `subtractAll fs gaps` takes a whole list of intervals
out of a whole list of gaps. `merge` joins the intervals of an ascending list that overlap or touch.
The results are described by the points they contain (`mem_subtractAll`, `mem_merge`) and by their
shape (`Gaps`): non-empty, in ascending order, never touching. Intervals of that shape are the maximal
ones of the set of their points (`Gaps.mem_iff_maximalIn`). -/

namespace Intervals

open List

variable {f gap g : ℕ × ℕ} {gaps ranges rest : List (ℕ × ℕ)} {o : ℕ}

/-- The point `o` lies in the half-open interval `r`. -/
def Within (r : ℕ × ℕ) (o : ℕ) : Prop := r.1 ≤ o ∧ o < r.2

instance (r : ℕ × ℕ) (o : ℕ) : Decidable (Within r o) := inferInstanceAs (Decidable (_ ∧ _))

/-- What is left of a gap once the range `f` is taken out of it. -/
def subtractRange (f gap : ℕ × ℕ) : List (ℕ × ℕ) :=
  if f.2 ≤ gap.1 ∨ f.1 ≥ gap.2 then [gap]
  else
    (if f.1 > gap.1 then [(gap.1, f.1)] else []) ++ (if f.2 < gap.2 then [(f.2, gap.2)] else [])

def subtractAll (ranges : List (ℕ × ℕ)) (gaps : List (ℕ × ℕ)) : List (ℕ × ℕ) :=
  ranges.foldl (fun gaps f => gaps.flatMap (subtractRange f)) gaps

/-- Non-empty intervals in ascending order that do not touch each other. -/
structure Gaps (gaps : List (ℕ × ℕ)) : Prop where
  nonempty : ∀ g ∈ gaps, g.1 < g.2
  apart : gaps.Pairwise fun a b => a.2 < b.1

theorem mem_subtractRange (hf : f.1 < f.2) (o : ℕ) :
    (∃ g ∈ subtractRange f gap, Within g o) ↔ Within gap o ∧ ¬ Within f o := by
  unfold subtractRange Within
  split_ifs with h₁ h₂ h₃ h₃
  · simp only [mem_singleton, exists_eq_left]
    omega
  · simp only [cons_append, nil_append, mem_cons, not_mem_nil, or_false,
      exists_eq_or_imp, exists_eq_left]
    omega
  · simp only [append_nil, mem_singleton, exists_eq_left]
    omega
  · simp only [nil_append, mem_singleton, exists_eq_left]
    omega
  · simp only [append_nil, not_mem_nil, false_and, exists_false, false_iff]
    omega

theorem subtractRange_bounds (hgap : gap.1 < gap.2) (hg : g ∈ subtractRange f gap) :
    gap.1 ≤ g.1 ∧ g.1 < g.2 ∧ g.2 ≤ gap.2 := by
  unfold subtractRange at hg
  split_ifs at hg with h₁ h₂ h₃ h₃
  · rw [mem_singleton] at hg
    subst hg
    omega
  · simp only [cons_append, nil_append, mem_cons, not_mem_nil, or_false] at hg
    rcases hg with rfl | rfl
    · dsimp only; omega
    · dsimp only; omega
  · simp only [append_nil, mem_singleton] at hg
    subst hg
    dsimp only; omega
  · simp only [nil_append, mem_singleton] at hg
    subst hg
    dsimp only; omega
  · simp at hg

theorem subtractRange_apart (hf : f.1 < f.2) :
    (subtractRange f gap).Pairwise fun a b => a.2 < b.1 := by
  unfold subtractRange
  split_ifs <;> simp [hf]

theorem Gaps.flatMap_subtractRange (h : Gaps gaps) (hf : f.1 < f.2) :
    Gaps (gaps.flatMap (subtractRange f)) := by
  constructor
  · intro g hg
    obtain ⟨gap, hgap, hg⟩ := mem_flatMap.1 hg
    exact (subtractRange_bounds (h.nonempty gap hgap) hg).2.1
  · rw [pairwise_flatMap]
    refine ⟨fun gap _ => subtractRange_apart hf, ?_⟩
    refine h.apart.imp_of_mem fun {a b} ha hb hab x hx y hy => ?_
    have hxa := subtractRange_bounds (h.nonempty a ha) hx
    have hyb := subtractRange_bounds (h.nonempty b hb) hy
    omega

theorem Gaps.subtractAll (hranges : ∀ f ∈ ranges, f.1 < f.2) :
    ∀ {gaps : List (ℕ × ℕ)}, Gaps gaps → Gaps (Intervals.subtractAll ranges gaps) := by
  induction ranges with
  | nil => intro gaps h; exact h
  | cons f rest ih =>
    intro gaps h
    exact ih (fun g hg => hranges g (mem_cons_of_mem _ hg))
      (h.flatMap_subtractRange (hranges f (mem_cons_self ..)))

theorem mem_subtractAll (hranges : ∀ f ∈ ranges, f.1 < f.2) (o : ℕ) :
    ∀ gaps : List (ℕ × ℕ), (∃ g ∈ subtractAll ranges gaps, Within g o) ↔
      (∃ g ∈ gaps, Within g o) ∧ ∀ f ∈ ranges, ¬ Within f o := by
  induction ranges with
  | nil => intro gaps; simp [subtractAll]
  | cons f rest ih =>
    intro gaps
    have hf := hranges f (mem_cons_self ..)
    have hone : (∃ g ∈ gaps.flatMap (subtractRange f), Within g o) ↔
        (∃ g ∈ gaps, Within g o) ∧ ¬ Within f o := by
      constructor
      · rintro ⟨g, hg, ho⟩
        obtain ⟨gap, hgap, hg⟩ := mem_flatMap.1 hg
        obtain ⟨hin, hout⟩ := (mem_subtractRange hf o).1 ⟨g, hg, ho⟩
        exact ⟨⟨gap, hgap, hin⟩, hout⟩
      · rintro ⟨⟨gap, hgap, hin⟩, hout⟩
        obtain ⟨g, hg, ho⟩ := (mem_subtractRange hf o).2 ⟨hin, hout⟩
        exact ⟨g, mem_flatMap.2 ⟨gap, hgap, hg⟩, ho⟩
    have hrest := ih (fun g hg => hranges g (mem_cons_of_mem _ hg)) (gaps.flatMap (subtractRange f))
    have hstep : subtractAll (f :: rest) gaps
        = subtractAll rest (gaps.flatMap (subtractRange f)) := rfl
    rw [hstep, hrest, hone, forall_mem_cons, and_assoc]

theorem Gaps.head_of_le (h : Gaps gaps) (ho : ∃ g ∈ gaps, Within g o) (hlow : ∀ g ∈ gaps, o ≤ g.1) :
    ∃ stop rest, gaps = (o, stop) :: rest ∧ o < stop := by
  obtain ⟨g, hg, hlo, hhi⟩ := ho
  cases gaps with
  | nil => simp at hg
  | cons g₀ rest =>
    rcases mem_cons.1 hg with rfl | hg'
    · have := hlow g hg
      refine ⟨g.2, rest, ?_, hhi⟩
      rw [show o = g.1 by omega]
    · have hne := h.nonempty g₀ (mem_cons_self ..)
      have happ := (pairwise_cons.1 h.apart).1 g hg'
      have := hlow g₀ (mem_cons_self ..)
      omega

theorem Gaps.apart_of_ne (h : Gaps gaps) {g' : ℕ × ℕ} (hg : g ∈ gaps) (hg' : g' ∈ gaps)
    (hne : g ≠ g') : g.2 < g'.1 ∨ g'.2 < g.1 := by
  rcases mem_iff_getElem.1 hg with ⟨i, hi, rfl⟩
  rcases mem_iff_getElem.1 hg' with ⟨j, hj, rfl⟩
  rcases Nat.lt_trichotomy i j with hij | rfl | hij
  · exact .inl (pairwise_iff_getElem.1 h.apart i j hi hj hij)
  · exact absurd rfl hne
  · exact .inr (pairwise_iff_getElem.1 h.apart j i hj hi hij)

theorem Gaps.eq_of_reach (h : Gaps gaps) {g' : ℕ × ℕ} (hg : g ∈ gaps) (hg' : g' ∈ gaps)
    (ho : g.1 ≤ o ∧ o ≤ g.2) (ho' : g'.1 ≤ o ∧ o ≤ g'.2) : g = g' := by
  by_contra hne
  have := h.apart_of_ne hg hg' hne
  omega

theorem Gaps.covers_iff (h : Gaps gaps) {start stop : ℕ} (hlt : start < stop) :
    (∀ o, start ≤ o → o < stop → ∃ g ∈ gaps, Within g o) ↔
      ∃ g ∈ gaps, g.1 ≤ start ∧ stop ≤ g.2 := by
  constructor
  · intro hall
    obtain ⟨g, hg, hlo, hhi⟩ := hall start le_rfl hlt
    refine ⟨g, hg, hlo, not_lt.1 fun hout => ?_⟩
    -- The first point behind `g` would have to lie in a piece that touches `g`.
    obtain ⟨g', hg', hlo', hhi'⟩ := hall g.2 hhi.le hout
    obtain rfl := h.eq_of_reach hg hg' ⟨hlo.trans hhi.le, le_rfl⟩ ⟨hlo', hhi'.le⟩
    exact lt_irrefl _ hhi'
  · rintro ⟨g, hg, hlo, hhi⟩ o hstart hstop
    exact ⟨g, hg, hlo.trans hstart, hstop.trans_le hhi⟩

/-- A non-empty interval of points with `P` that cannot be extended to either side. -/
structure MaximalIn (P : ℕ → Prop) (r : ℕ × ℕ) : Prop where
  nonempty : r.1 < r.2
  inside : ∀ o, Within r o → P o
  left : r.1 = 0 ∨ ¬ P (r.1 - 1)
  right : ¬ P r.2

theorem Gaps.mem_iff_maximalIn (h : Gaps gaps) (r : ℕ × ℕ) :
    r ∈ gaps ↔ MaximalIn (fun o => ∃ g ∈ gaps, Within g o) r := by
  constructor
  · intro hr
    have hne := h.nonempty r hr
    refine ⟨hne, fun o ho => ⟨r, hr, ho⟩, ?_, ?_⟩
    · refine or_iff_not_imp_left.2 fun hpos => ?_
      rintro ⟨g, hg, hlo, hhi⟩
      obtain rfl := h.eq_of_reach hr hg (o := r.1) ⟨le_rfl, hne.le⟩ ⟨by omega, by omega⟩
      omega
    · rintro ⟨g, hg, hlo, hhi⟩
      obtain rfl := h.eq_of_reach hr hg ⟨hne.le, le_rfl⟩ ⟨hlo, hhi.le⟩
      omega
  · rintro ⟨hne, hin, hleft, hright⟩
    obtain ⟨g, hg, hlo, hhi⟩ := (h.covers_iff hne).1 fun o hlo hhi => hin o ⟨hlo, hhi⟩
    -- A gap that is longer than `r` would contain one of its two neighbours.
    have hstart : r.1 = g.1 := by
      by_contra hne'
      rcases hleft with hzero | hleft
      · omega
      · exact hleft ⟨g, hg, by omega, by omega⟩
    have hstop : r.2 = g.2 := by
      by_contra hne'
      exact hright ⟨g, hg, by omega, by omega⟩
    rwa [show r = g from Prod.ext hstart hstop]

theorem Gaps.nodup (h : Gaps gaps) : gaps.Nodup := by
  refine h.apart.imp_of_mem fun {a b} ha _ hab => ?_
  rintro rfl
  have := h.nonempty a ha
  omega

theorem Gaps.sum_le {gaps : List (ℕ × ℕ)} (h : Gaps gaps) :
    ∀ {lo hi : ℕ}, (∀ g ∈ gaps, lo ≤ g.1 ∧ g.2 ≤ hi) →
    (gaps.map fun g => g.2 - g.1).sum ≤ hi - lo := by
  induction gaps with
  | nil => exact fun _ => Nat.zero_le _
  | cons g rest ih =>
    intro lo hi hb
    have hg := hb g (mem_cons_self ..)
    have hlt := h.nonempty g (mem_cons_self ..)
    obtain ⟨happart, htail⟩ := pairwise_cons.1 h.apart
    have hrest := ih ⟨fun d hd => h.nonempty d (mem_cons_of_mem _ hd), htail⟩
      fun d hd => ⟨(happart d hd).le, (hb d (mem_cons_of_mem _ hd)).2⟩
    simp only [map_cons, sum_cons]
    omega

theorem eq_of_mem_subtractAll_empty (ranges : List (ℕ × ℕ)) :
    ∀ {gaps : List (ℕ × ℕ)}, (∀ g ∈ gaps, g = (o, o)) → ∀ g ∈ subtractAll ranges gaps, g = (o, o) := by
  induction ranges with
  | nil => exact fun h => h
  | cons f rest ih =>
    intro gaps h
    refine ih fun g hg => ?_
    obtain ⟨gap, hgap, hg⟩ := mem_flatMap.1 hg
    obtain rfl := h gap hgap
    unfold subtractRange at hg
    dsimp only at hg
    by_cases hout : f.2 ≤ o ∨ f.1 ≥ o
    · rw [if_pos hout] at hg
      exact mem_singleton.1 hg
    · rw [if_neg hout, if_neg (by omega), if_neg (by omega)] at hg
      exact absurd hg not_mem_nil

/-! ## Merging -/

/-- Merge the intervals of an ascending list into `back`, the last one built so far. -/
def mergeInto (back : ℕ × ℕ) : List (ℕ × ℕ) → List (ℕ × ℕ)
  | [] => [back]
  | r :: rest =>
    if r.1 ≤ back.2 then mergeInto (back.1, max back.2 r.2) rest else back :: mergeInto r rest

def merge : List (ℕ × ℕ) → List (ℕ × ℕ)
  | [] => []
  | r :: rest => mergeInto r rest

/-- Non-empty intervals in ascending order of their starts. -/
structure Ascending (ranges : List (ℕ × ℕ)) : Prop where
  nonempty : ∀ r ∈ ranges, r.1 < r.2
  sorted : ranges.Pairwise fun a b => a.1 ≤ b.1

theorem Ascending.tail {r : ℕ × ℕ} (h : Ascending (r :: rest)) : Ascending rest :=
  ⟨fun r' hr' => h.nonempty r' (mem_cons_of_mem r hr'), (pairwise_cons.1 h.sorted).2⟩

theorem Ascending.grow {back r : ℕ × ℕ} (h : Ascending (back :: r :: rest)) :
    Ascending ((back.1, max back.2 r.2) :: rest) := by
  obtain ⟨hback, hrest⟩ := pairwise_cons.1 h.sorted
  refine ⟨fun r' hr' => ?_, pairwise_cons.2
    ⟨fun r' hr' => hback r' (mem_cons_of_mem r hr'), (pairwise_cons.1 hrest).2⟩⟩
  rcases mem_cons.1 hr' with rfl | hr'
  · exact lt_of_lt_of_le (h.nonempty back mem_cons_self) (Nat.le_max_left _ _)
  · exact h.nonempty r' (mem_cons_of_mem _ (mem_cons_of_mem _ hr'))

theorem mergeInto_start :
    ∀ {back : ℕ × ℕ}, ∀ g ∈ mergeInto back rest, ∃ r ∈ back :: rest, g.1 = r.1 := by
  induction rest with
  | nil =>
    intro back g hg
    exact ⟨back, mem_cons_self, by rw [mem_singleton.1 hg]⟩
  | cons r rest ih =>
    intro back g hg
    rw [mergeInto] at hg
    split_ifs at hg with htouch
    · obtain ⟨r', hr', hstart⟩ := ih g hg
      rcases mem_cons.1 hr' with rfl | hr'
      · exact ⟨back, mem_cons_self, hstart⟩
      · exact ⟨r', mem_cons_of_mem _ (mem_cons_of_mem _ hr'), hstart⟩
    · rcases mem_cons.1 hg with rfl | hg
      · exact ⟨g, mem_cons_self, rfl⟩
      · obtain ⟨r', hr', hstart⟩ := ih g hg
        exact ⟨r', mem_cons_of_mem _ hr', hstart⟩

theorem Ascending.gaps_mergeInto :
    ∀ {back : ℕ × ℕ}, Ascending (back :: rest) → Gaps (mergeInto back rest) := by
  induction rest with
  | nil =>
    intro back h
    refine ⟨fun g hg => ?_, pairwise_singleton _ _⟩
    rw [mem_singleton.1 hg]
    exact h.nonempty back mem_cons_self
  | cons r rest ih =>
    intro back h
    rw [mergeInto]
    split_ifs with htouch
    · exact ih h.grow
    · obtain ⟨hnonempty, hapart⟩ := ih h.tail
      constructor
      · intro g hg
        rcases mem_cons.1 hg with rfl | hg
        · exact h.nonempty g mem_cons_self
        · exact hnonempty g hg
      · refine pairwise_cons.2 ⟨fun g hg => ?_, hapart⟩
        obtain ⟨r', hr', hstart⟩ := mergeInto_start g hg
        rw [hstart]
        rcases mem_cons.1 hr' with rfl | hr'
        · exact not_le.1 htouch
        · exact (not_le.1 htouch).trans_le ((pairwise_cons.1 h.tail.sorted).1 r' hr')

theorem mem_mergeInto (o : ℕ) : ∀ {back : ℕ × ℕ}, Ascending (back :: rest) →
      ((∃ g ∈ mergeInto back rest, Within g o) ↔ ∃ r ∈ back :: rest, Within r o) := by
  induction rest with
  | nil => exact fun _ => Iff.rfl
  | cons r rest ih =>
    intro back h
    rw [mergeInto]
    split_ifs with htouch
    · have hle := (pairwise_cons.1 h.sorted).1 r mem_cons_self
      have hjoin : Within (back.1, max back.2 r.2) o ↔ Within back o ∨ Within r o := by
        unfold Within
        omega
      rw [ih h.grow]
      simp only [mem_cons, exists_eq_or_imp, hjoin, or_assoc]
    · have hrest := ih h.tail
      simp only [mem_cons, exists_eq_or_imp] at hrest ⊢
      rw [hrest]

theorem Ascending.gaps_merge (h : Ascending ranges) : Gaps (merge ranges) := by
  cases ranges with
  | nil => exact ⟨fun g hg => absurd hg not_mem_nil, Pairwise.nil⟩
  | cons r rest => exact h.gaps_mergeInto

theorem merge_start (hg : g ∈ merge ranges) : ∃ r ∈ ranges, g.1 = r.1 := by
  cases ranges with
  | nil => exact absurd hg not_mem_nil
  | cons r rest => exact mergeInto_start g hg

theorem mem_merge (h : Ascending ranges) (o : ℕ) :
    (∃ g ∈ merge ranges, Within g o) ↔ ∃ r ∈ ranges, Within r o := by
  cases ranges with
  | nil => exact Iff.rfl
  | cons r rest => exact mem_mergeInto o h

end Intervals
