import Mathlib

/-!
# Tables as lists of rows

A table is a list of rows and a statement is a `filter`, a conditional `map` or an
insertion. The lemmas here say what these do to a column that identifies rows, and
how many rows are left by a `DELETE` that keeps the first rows of an order.

A transaction returns `Except`: the tables it commits, or the error it stops with.
-/

namespace Rows

open List

variable {α β ε : Type*}

/-! ## Statements in a row -/

theorem bind_eq_ok {α β ε : Type} {x : Except ε α} {f : α → Except ε β} {b : β} :
    (x >>= f) = .ok b ↔ ∃ a, x = .ok a ∧ f a = .ok b := by
  cases x with
  | error =>
    constructor
    · intro h
      cases h
    · rintro ⟨a, ha, -⟩
      cases ha
  | ok a =>
    constructor
    · intro h
      exact ⟨a, rfl, h⟩
    rintro ⟨a', ha, h⟩
    cases ha
    exact h

/-- Stop the transaction with `error` unless the condition holds. -/
def require {ε : Type} (p : Bool) (error : ε) : Except ε Unit :=
  if p then .ok () else .error error

@[simp] theorem require_eq_ok {ε : Type} {p : Bool} {error : ε} {u : Unit} :
    require p error = .ok u ↔ p = true := by
  cases p <;> simp [require]

/-! ## Updates -/

/-- `UPDATE ... WHERE`: rewrite the rows that satisfy a condition. -/
def update (p : α → Bool) (f : α → α) (rows : List α) : List α :=
  rows.map fun r => if p r then f r else r

variable {p : α → Bool} {f : α → α} {rows : List α}

theorem mem_update {r : α} : r ∈ update p f rows ↔
      (∃ x ∈ rows, p x = true ∧ r = f x) ∨ (r ∈ rows ∧ p r = false) := by
  unfold update
  rw [List.mem_map]
  constructor
  · rintro ⟨x, hx, rfl⟩
    by_cases hp : p x = true
    · exact .inl ⟨x, hx, hp, by rw [if_pos hp]⟩
    · rw [if_neg hp]
      exact .inr ⟨hx, by simpa using hp⟩
  · rintro (⟨x, hx, hp, rfl⟩ | ⟨hr, hp⟩)
    · exact ⟨x, hx, by rw [if_pos hp]⟩
    · exact ⟨r, hr, by simp [hp]⟩

theorem map_update {key : α → β} (hkey : ∀ x ∈ rows, p x = true → key (f x) = key x) :
    (update p f rows).map key = rows.map key := by
  unfold update
  rw [map_map]
  apply map_congr_left
  intro x hx
  by_cases hp : p x = true
  · simp [hp, hkey x hx hp]
  · simp [hp]

@[simp] theorem length_update : (update p f rows).length = rows.length := by simp [update]

theorem countP_update {q : α → Bool} (hq : ∀ x ∈ rows, p x = true → q (f x) = q x) :
    (update p f rows).countP q = rows.countP q := by
  unfold update
  rw [countP_map]
  apply countP_congr
  intro x hx
  by_cases hp : p x = true
  · simp [hp, hq x hx hp]
  · simp [hp]

theorem countP_update_le {q : α → Bool}
    (hq : ∀ x ∈ rows, p x = true → q (f x) = true → q x = true) :
    (update p f rows).countP q ≤ rows.countP q := by
  unfold update
  rw [countP_map]
  apply countP_mono_left
  intro x hx hcounted
  by_cases hp : p x = true
  · exact hq x hx hp (by simpa [hp] using hcounted)
  · simpa [hp] using hcounted

/-! ## Counting -/

theorem countP_le_add {q r : α → Bool} (h : ∀ x ∈ rows, p x = true → q x = true ∨ r x = true) :
    rows.countP p ≤ rows.countP q + rows.countP r := by
  induction rows with
  | nil => simp
  | cons x rest ih =>
    have hrest := ih fun y hy => h y (mem_cons_of_mem x hy)
    have hx := h x mem_cons_self
    simp only [countP_cons]
    split
    · rename_i hp
      rcases hx hp with hq | hr
      · rw [if_pos hq]
        omega
      · rw [if_pos hr]
        omega
    · omega

/-! ## Keys -/

section Keys

variable {key : α → β}

section

variable (h : (rows.map key).Nodup)
include h

theorem nodup_filter : ((rows.filter p).map key).Nodup := h.sublist (filter_sublist.map key)

theorem nodup_cons {r : α} (hr : ∀ x ∈ rows, key x ≠ key r) : ((r :: rows).map key).Nodup := by
  rw [map_cons, List.nodup_cons]
  refine ⟨?_, h⟩
  intro hmem
  obtain ⟨x, hx, heq⟩ := List.mem_map.mp hmem
  exact hr x hx heq

theorem nodup_append {r : α} (hr : ∀ x ∈ rows, key x ≠ key r) : ((rows ++ [r]).map key).Nodup := by
  rw [map_append]
  refine h.append (by simp) ?_
  rintro k hk hk'
  obtain ⟨x, hx, rfl⟩ := List.mem_map.mp hk
  exact hr x hx (by simpa using hk')

theorem eq_of_key {x y : α} (hx : x ∈ rows) (hy : y ∈ rows) (hkey : key x = key y) : x = y :=
  inj_on_of_nodup_map h hx hy hkey

theorem countP_key_le_one [DecidableEq β] (k : β) : rows.countP (fun x => key x = k) ≤ 1 := by
  have hcount : rows.countP (fun x => key x = k) = (rows.map key).count k := by
    rw [List.count, countP_map]
    apply countP_congr
    intro x _
    simp
  rw [hcount]
  exact nodup_iff_count_le_one.mp h k

end

end Keys

/-! ## Keeping the first rows of an order -/

/-- Of the rows, only the first `n` of an order survive the deletion of the rest. -/
theorem length_kept_le [DecidableEq β] (key : α → β) {sorted : List α}
    (hperm : sorted.Perm rows) (n : ℕ) :
    (rows.filter fun x => !(sorted.drop n).any fun y => key y = key x).length ≤ n := by
  let kept : α → Bool := fun x => !(sorted.drop n).any fun y => key y = key x
  have hdrop : (sorted.drop n).filter kept = [] := by
    rw [filter_eq_nil_iff]
    intro x hx
    simp only [kept, Bool.not_eq_true', Bool.not_eq_false]
    exact any_eq_true.mpr ⟨x, hx, by simp⟩
  have hsplit : sorted.filter kept = (sorted.take n).filter kept := by
    conv_lhs => rw [← take_append_drop n sorted]
    rw [filter_append, hdrop, append_nil]
  calc
    (rows.filter kept).length = (sorted.filter kept).length := (hperm.filter kept).length_eq.symm
    _ = ((sorted.take n).filter kept).length := by rw [hsplit]
    _ ≤ (sorted.take n).length := length_filter_le _ _
    _ ≤ n := length_take_le n sorted

end Rows
