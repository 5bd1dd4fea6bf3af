import Mathlib

/-!
# Trailing-window admission budgets

`SlidingWindow` keeps the instants of its reservations in a queue. A reservation first
drops old instants from the front, a refund takes one instant out of the middle, and
several reservations may share an instant.

A run keeps beside the queue the reservations that were granted and not refunded.
Inside the trailing window the two are the same list.
-/

namespace SimplestChat

open List

structure SlidingWindow where
  window : ℕ
  capacity : ℕ
  reserved : List ℕ

namespace SlidingWindow

/-- The instant is in the trailing window at `now`. -/
def recent (w : SlidingWindow) (now instant : ℕ) : Bool := now - instant < w.window

def reserve (w : SlidingWindow) (now : ℕ) : SlidingWindow × Bool :=
  let reserved := w.reserved.dropWhile fun instant => w.window ≤ now - instant
  if w.capacity ≤ reserved.length then ({ w with reserved }, false)
  else ({ w with reserved := reserved ++ [now] }, true)

/-- Forget the first reservation taken at the instant. -/
def refund (w : SlidingWindow) (instant : ℕ) : SlidingWindow × Bool :=
  if instant ∈ w.reserved then
    ({ w with reserved := w.reserved.erase instant }, true)
  else (w, false)

/-- How many reservations the window still has room for at `now`. -/
def free (w : SlidingWindow) (now : ℕ) : ℕ :=
  w.capacity - (w.reserved.filter (w.recent now)).length

theorem refund_fst (w : SlidingWindow) (instant : ℕ) :
    (w.refund instant).1 = { w with reserved := w.reserved.erase instant } := by
  unfold refund
  split
  · rfl
  · rw [erase_of_not_mem ‹_›]

/-- In a sorted queue the old instants are all in front. -/
theorem dropWhile_eq_filter (window now : ℕ) {queue : List ℕ} (hsorted : queue.Pairwise (· ≤ ·)) :
    (queue.dropWhile fun instant => window ≤ now - instant) =
      queue.filter fun instant => now - instant < window := by
  induction queue with
  | nil => rfl
  | cons first rest ih =>
    obtain ⟨hfirst, hrest⟩ := pairwise_cons.mp hsorted
    by_cases hold : window ≤ now - first
    · rw [dropWhile_cons_of_pos (by simpa using hold), ih hrest,
        filter_cons_of_neg (by simpa using hold)]
    · rw [dropWhile_cons_of_neg (by simpa using hold), eq_comm, filter_eq_self]
      intro instant hmem
      have hle : first ≤ instant := by
        rcases mem_cons.mp hmem with rfl | hmem
        · exact le_rfl
        · exact hfirst instant hmem
      simp only [decide_eq_true_eq]
      omega

theorem reserve_eq {w : SlidingWindow} (hsorted : w.reserved.Pairwise (· ≤ ·)) (now : ℕ) :
    w.reserve now = let reserved := w.reserved.filter (w.recent now)
      if w.capacity ≤ reserved.length then ({ w with reserved }, false)
      else ({ w with reserved := reserved ++ [now] }, true) := by
  unfold reserve recent
  rw [dropWhile_eq_filter w.window now hsorted]

end SlidingWindow

/-- A reservation comes some time after the one before it. A refund names an
instant. -/
inductive WindowCall where
  | reserve (elapsed : ℕ)
  | refund (instant : ℕ)

/-- The window, the reservations that were granted and not refunded, and the instant of
the latest `reserve`. -/
structure WindowRun where
  state : SlidingWindow
  granted : List ℕ
  last : ℕ

namespace WindowRun

def start (window capacity : ℕ) : WindowRun := ⟨⟨window, capacity, []⟩, [], 0⟩

def step (r : WindowRun) : WindowCall → WindowRun
  | .reserve elapsed =>
    let now := r.last + elapsed
    { state := (r.state.reserve now).1
      granted := if (r.state.reserve now).2 then r.granted ++ [now] else r.granted
      last := now }
  | .refund instant =>
    { r with state := (r.state.refund instant).1, granted := r.granted.erase instant }

/-- The outstanding reservations in the trailing window at `now`. -/
def inWindow (r : WindowRun) (now : ℕ) : List ℕ := r.granted.filter (r.state.recent now)

structure Inv (r : WindowRun) : Prop where
  sorted : r.state.reserved.Pairwise (· ≤ ·)
  bounded : r.state.reserved.length ≤ r.state.capacity
  past : ∀ instant ∈ r.state.reserved, instant ≤ r.last
  /-- what the latest `reserve` found too old is gone -/
  pruned : ∀ instant ∈ r.state.reserved, instant < r.last → r.state.recent r.last instant = true
  agrees : ∀ now, r.last ≤ now → r.state.reserved.filter (r.state.recent now) = r.inWindow now

namespace Inv

variable {r : WindowRun} (h : r.Inv)
include h

theorem refund (instant : ℕ) : (r.step (.refund instant)).Inv := by
  unfold step
  dsimp only
  rw [SlidingWindow.refund_fst]
  exact
    { sorted := h.sorted.sublist erase_sublist
      bounded := erase_sublist.length_le.trans h.bounded
      past := fun other hmem => h.past other (mem_of_mem_erase hmem)
      pruned := fun other hmem => h.pruned other (mem_of_mem_erase hmem)
      agrees := fun now hnow => by
        unfold inWindow
        rw [← erase_filter, ← erase_filter]
        exact congrArg (List.erase · instant) (h.agrees now hnow) }

omit h in
/-- What is in the window later was in it before. -/
theorem filter_inWindow {now later : ℕ} (hlater : now ≤ later) :
    (r.inWindow now).filter (r.state.recent later) = r.inWindow later := by
  unfold inWindow
  rw [filter_filter]
  refine filter_congr fun instant _ => ?_
  simp only [SlidingWindow.recent, Bool.and_eq_left_iff_imp, decide_eq_true_eq]
  omega

theorem reserve (elapsed : ℕ) : (r.step (.reserve elapsed)).Inv := by
  have hnow : r.last ≤ r.last + elapsed := Nat.le_add_right _ _
  unfold step
  dsimp only
  generalize r.last + elapsed = now at hnow ⊢
  rw [SlidingWindow.reserve_eq h.sorted]
  have hmem : ∀ instant ∈ r.state.reserved.filter (r.state.recent now),
      instant ≤ now ∧ r.state.recent now instant = true := fun instant hmem =>
    ⟨(h.past instant (List.mem_filter.mp hmem).1).trans hnow, (List.mem_filter.mp hmem).2⟩
  have hsorted := h.sorted.sublist (filter_sublist (p := r.state.recent now))
  have hagrees : ∀ later, now ≤ later →
      (r.state.reserved.filter (r.state.recent now)).filter (r.state.recent later) =
        r.inWindow later := fun later hlater => by
    rw [h.agrees now hnow, filter_inWindow hlater]
  have hbounded := (length_filter_le (r.state.recent now) _).trans h.bounded
  generalize r.state.reserved.filter (r.state.recent now) = kept at *
  dsimp only
  split
  · exact ⟨hsorted, hbounded, fun i hi => (hmem i hi).1, fun i hi _ => (hmem i hi).2, hagrees⟩
  rename_i hroom
  refine ⟨?_, ?_, ?_, ?_, ?_⟩ <;> dsimp only
  · refine pairwise_append.mpr ⟨hsorted, pairwise_singleton _ _, ?_⟩
    intro instant hkept last hlast
    rw [mem_singleton.mp hlast]
    exact (hmem instant hkept).1
  · rw [length_append, length_singleton]
    omega
  · intro instant hi
    rcases mem_append.mp hi with hi | hi
    · exact (hmem instant hi).1
    · exact (mem_singleton.mp hi).le
  · intro instant hi hlt
    rcases mem_append.mp hi with hi | hi
    · exact (hmem instant hi).2
    · exact absurd (mem_singleton.mp hi) hlt.ne
  · intro later hlater
    unfold inWindow
    rw [if_pos rfl, filter_append, filter_append]
    exact congrArg (· ++ _) (hagrees later hlater)

theorem run (calls : List WindowCall) : (calls.foldl step r).Inv := by
  induction calls generalizing r with
  | nil => exact h
  | cons call rest ih =>
    cases call with
    | reserve elapsed => exact ih (h.reserve elapsed)
    | refund instant => exact ih (h.refund instant)

end Inv

/-- What the window promises at any point of a run, for any instant from its latest
reservation on. -/
structure Contract (r : WindowRun) : Prop where
  within : ∀ now, r.last ≤ now → (r.inWindow now).length ≤ r.state.capacity
  refused : ∀ now, r.last ≤ now → (r.state.reserve now).2 = false →
    (r.inWindow now).length = r.state.capacity
  /-- refunding a reservation that is still in the window frees one place -/
  refunded : ∀ now instant, r.last ≤ now → instant ∈ r.inWindow now →
    (r.state.refund instant).2 = true ∧ (r.state.refund instant).1.free now = r.state.free now + 1
  /-- refunding one that is too old makes no difference to any reservation -/
  agedOut : ∀ now instant, r.last ≤ now → r.state.window ≤ now - instant →
    (r.state.refund instant).1.reserve now = r.state.reserve now
  /-- and finds nothing once the queue was looked through since -/
  forgotten : ∀ instant, instant < r.last → r.state.window ≤ r.last - instant →
    r.state.refund instant = (r.state, false)

theorem Inv.contract {r : WindowRun} (h : r.Inv) : r.Contract where
  within now hnow := by
    rw [← h.agrees now hnow]
    exact (length_filter_le _ _).trans h.bounded
  refused now hnow hrefused := by
    rw [SlidingWindow.reserve_eq h.sorted, h.agrees now hnow] at hrefused
    dsimp only at hrefused
    split at hrefused
    · refine le_antisymm ?_ ‹_›
      rw [← h.agrees now hnow]
      exact (length_filter_le _ _).trans h.bounded
    · cases hrefused
  refunded now instant hnow hmem := by
    rw [← h.agrees now hnow] at hmem
    have hqueued := (List.mem_filter.mp hmem).1
    have hpos := length_pos_of_mem hmem
    have hle := (length_filter_le (r.state.recent now) _).trans h.bounded
    refine ⟨by simp [SlidingWindow.refund, hqueued], ?_⟩
    unfold SlidingWindow.free
    rw [SlidingWindow.refund_fst, ← erase_filter]
    change r.state.capacity -
      ((r.state.reserved.filter (r.state.recent now)).erase instant).length = _
    rw [length_erase_of_mem hmem]
    omega
  agedOut now instant hnow hold := by
    have hnotIn : instant ∉ r.state.reserved.filter (r.state.recent now) := fun hmem => by
      have := (List.mem_filter.mp hmem).2
      simp only [SlidingWindow.recent, decide_eq_true_eq] at this
      omega
    have hfilter : (r.state.reserved.erase instant).filter (r.state.recent now) =
        r.state.reserved.filter (r.state.recent now) := by
      rw [← erase_filter, erase_of_not_mem hnotIn]
    rw [SlidingWindow.refund_fst, SlidingWindow.reserve_eq h.sorted,
      SlidingWindow.reserve_eq (h.sorted.sublist erase_sublist)]
    unfold SlidingWindow.recent at hfilter ⊢
    dsimp only
    rw [hfilter]
  forgotten instant hlt hold := by
    refine if_neg fun hmem => ?_
    have := h.pruned instant hmem hlt
    simp only [SlidingWindow.recent, decide_eq_true_eq] at this
    omega

/-- Whatever was reserved and refunded, the window keeps its promises. -/
theorem window_contract (window capacity : ℕ) (calls : List WindowCall) :
    (calls.foldl step (start window capacity)).Contract := by
  have hstart : (start window capacity).Inv :=
    ⟨List.Pairwise.nil, Nat.zero_le _, nofun, nofun, fun _ _ => rfl⟩
  exact (hstart.run calls).contract

end WindowRun

end SimplestChat
