import Mathlib

/-!
# The first items of a ranking

A stable sort by descending rank, cut after `n` items.
-/

namespace Ranking

open List

variable {α β γ : Type*} [LinearOrder β] [LinearOrder γ] (rank : α → β) (n : ℕ) (l : List α)

def top : List α := (l.insertionSort fun x y => rank y ≤ rank x).take n

variable {rank n l} {other : α → γ} {x y : α}

theorem top_subset : top rank n l ⊆ l := fun _ hx =>
  (mem_insertionSort _).mp (mem_of_mem_take hx)

theorem length_top : (top rank n l).length = min n l.length := by
  rw [top, length_take, length_insertionSort]

theorem nodup_top (h : l.Nodup) : (top rank n l).Nodup :=
  ((perm_insertionSort _ l).nodup_iff.mpr h).sublist (take_sublist _ _)

theorem rank_le_of_top (hx : x ∈ l) (hout : x ∉ top rank n l) (hy : y ∈ top rank n l) :
    rank x ≤ rank y := by
  have : IsTrans α fun x y => rank y ≤ rank x := ⟨fun _ _ _ hxy hyz => hyz.trans hxy⟩
  have : Std.Total fun x y => rank y ≤ rank x := ⟨fun _ _ => le_total _ _⟩
  have hsorted := pairwise_insertionSort (fun x y => rank y ≤ rank x) l
  have hmem := (mem_insertionSort fun x y => rank y ≤ rank x).mpr hx
  rw [← take_append_drop n (l.insertionSort _)] at hsorted hmem
  exact (pairwise_append.mp hsorted).2.2 y hy x ((mem_append.mp hmem).resolve_left hout)

theorem mem_top_of_subset (h : l.Nodup) (hsub : top rank n l ⊆ top other n l) :
    x ∈ top rank n l ↔ x ∈ top other n l := by
  refine Perm.mem_iff (((nodup_top h).subperm hsub).perm_of_length_le ?_)
  rw [length_top, length_top]

/-- A ranking that puts what another chooses above the rest makes the same choice. -/
theorem mem_top_of_separates (h : l.Nodup)
    (habove : ∀ x ∈ l, ∀ y ∈ l, x ∉ top rank n l → y ∈ top rank n l → other x < other y) :
    x ∈ top other n l ↔ x ∈ top rank n l := by
  refine mem_top_of_subset h fun x hx => ?_
  by_contra hout
  have hsub : top rank n l ⊆ top other n l := fun y hy => by
    by_contra hyout
    have hle := rank_le_of_top (top_subset hy) hyout hx
    exact hle.not_gt (habove x (top_subset hx) y (top_subset hy) hout hy)
  exact hout ((mem_top_of_subset h hsub).mpr hx)

end Ranking
