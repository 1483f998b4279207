import Mathlib.Order.Lattice
import Mathlib.Data.List.Perm.Basic

set_option autoImplicit false

/-! # The latest of the highest

A register that is overwritten by every newcomer which ranks at least as high as its content. After a
sequence of newcomers it holds the latest of those that rank highest (`latest_foldl_keep`), so the
order in which newcomers of different ranks arrive does not matter (`foldl_keep_perm`). -/

namespace LatestMaximum

open List

variable {α β : Type} [LinearOrder β] (rank : α → β)

/-- The content of the register after `x` has arrived. -/
def keep (best x : α) : α := if rank best ≤ rank x then x else best

/-- `m` ranks highest in the list, and everything behind it ranks lower. -/
def Latest (l : List α) (m : α) : Prop :=
  ∃ before after, l = before ++ m :: after ∧
    (∀ x ∈ before, rank x ≤ rank m) ∧ ∀ x ∈ after, rank x < rank m

variable {rank} {l l' : List α} {a m x : α}

theorem Latest.le (h : Latest rank l m) (hx : x ∈ l) : rank x ≤ rank m := by
  obtain ⟨before, after, rfl, hbefore, hafter⟩ := h
  rcases mem_append.1 hx with hx | hx
  · exact hbefore x hx
  · rcases mem_cons.1 hx with rfl | hx
    · exact le_rfl
    · exact (hafter x hx).le

/-- The head of the list, if nothing behind it ranks as high, or one of the rest. -/
theorem Latest.head_or (h : Latest rank (a :: l) m) :
    (m = a ∧ ∀ x ∈ l, rank x < rank a) ∨ Latest rank l m := by
  obtain ⟨before, after, hlist, hbefore, hafter⟩ := h
  cases before with
  | nil =>
    obtain ⟨rfl, rfl⟩ := cons.inj hlist
    exact .inl ⟨rfl, hafter⟩
  | cons b before =>
    obtain ⟨-, rfl⟩ := cons.inj hlist
    exact .inr ⟨before, after, rfl, fun x hx => hbefore x (mem_cons_of_mem _ hx), hafter⟩

theorem Latest.mem (h : Latest rank l m) : m ∈ l := by
  obtain ⟨before, after, rfl, -⟩ := h
  exact mem_append_right _ (mem_cons_self ..)

theorem Latest.cons (h : Latest rank l m) (ha : rank a ≤ rank m) : Latest rank (a :: l) m := by
  obtain ⟨before, after, rfl, hbefore, hafter⟩ := h
  refine ⟨a :: before, after, rfl, fun x hx => ?_, hafter⟩
  rcases mem_cons.1 hx with rfl | hx
  · exact ha
  · exact hbefore x hx

/-- A newcomer that ranks lower than the content leaves no trace. -/
theorem Latest.insert (h : Latest rank (a :: l) m) (hx : rank x < rank a) :
    Latest rank (a :: x :: l) m := by
  rcases h.head_or with ⟨rfl, hlower⟩ | htail
  · refine ⟨[], x :: l, rfl, fun _ h => absurd h not_mem_nil, fun y hy => ?_⟩
    rcases mem_cons.1 hy with rfl | hy
    · exact hx
    · exact hlower y hy
  · have ha := h.le (mem_cons_self ..)
    exact (htail.cons (hx.le.trans ha)).cons ha

variable (rank) in
theorem latest_foldl_keep (a : α) (l : List α) : Latest rank (a :: l) (l.foldl (keep rank) a) := by
  induction l generalizing a with
  | nil => exact ⟨[], [], rfl, fun _ h => absurd h not_mem_nil, fun _ h => absurd h not_mem_nil⟩
  | cons x l ih =>
    rw [foldl_cons]
    by_cases hle : rank a ≤ rank x
    · rw [keep, if_pos hle]
      exact (ih x).cons (hle.trans ((ih x).le (mem_cons_self ..)))
    · rw [keep, if_neg hle]
      exact (ih a).insert (not_le.1 hle)

/-- Newcomers of different ranks may arrive in any order. -/
theorem foldl_keep_perm (a : α) (hperm : l'.Perm l)
    (hinj : ∀ x ∈ l, ∀ y ∈ l, rank x = rank y → x = y) :
    l'.foldl (keep rank) a = l.foldl (keep rank) a := by
  have h := latest_foldl_keep rank a l
  have h' := latest_foldl_keep rank a l'
  generalize l.foldl (keep rank) a = m at h ⊢
  generalize l'.foldl (keep rank) a = m' at h' ⊢
  rcases h.head_or with ⟨rfl, hlower⟩ | htail
  · rcases h'.head_or with ⟨rfl, -⟩ | htail'
    · rfl
    · have hlt := hlower m' (hperm.subset htail'.mem)
      exact absurd (h'.le (mem_cons_self ..)) (not_le.2 hlt)
  · rcases h'.head_or with ⟨rfl, hlower'⟩ | htail'
    · have hlt := hlower' m (hperm.symm.subset htail.mem)
      exact absurd (h.le (mem_cons_self ..)) (not_le.2 hlt)
    · have hle := htail.le (hperm.subset htail'.mem)
      have hge := htail'.le (hperm.symm.subset htail.mem)
      exact hinj m' (hperm.subset htail'.mem) m htail.mem (le_antisymm hle hge)

end LatestMaximum
