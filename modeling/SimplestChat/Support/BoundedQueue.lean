import Mathlib

/-!
# Queues that are trimmed from the front

A bounded queue keeps its newest items: while a test on the front item, the
number of items and their total weight asks for it, the front item is dropped
and its weight taken off the total. Whatever the test, the result is a suffix
of the queue.
-/

namespace BoundedQueue

open List

variable {α : Type*}

/-- Drop items from the front while `exceeds` asks for it; the second component
is the total weight of what remains. -/
def popWhile (exceeds : α → ℕ → ℕ → Bool) (weight : α → ℕ) : List α → ℕ → List α × ℕ
  | [], total => ([], total)
  | x :: rest, total =>
    if exceeds x (rest.length + 1) total then
      popWhile exceeds weight rest (total - weight x)
    else (x :: rest, total)

theorem popWhile_suffix (exceeds : α → ℕ → ℕ → Bool) (weight : α → ℕ)
    (xs : List α) (total : ℕ) : (popWhile exceeds weight xs total).1 <:+ xs := by
  induction xs generalizing total with
  | nil => exact suffix_refl []
  | cons x rest ih =>
    unfold popWhile
    split
    · exact (ih _).trans (suffix_cons x rest)
    · exact suffix_refl _

end BoundedQueue
