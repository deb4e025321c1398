import Mathlib.Data.List.Basic
import Mathlib.Order.Basic

/-!
# Filters that remember what they let through

A filter decides about one item after the other, and all it remembers is the last one it let
through. Two filters make the same decisions about a sequence exactly if they agree about every
item of it, given what the *second* let through before that item (`decisions_eq_iff`): as long as
they have agreed they remember the same.
-/

namespace Streams

variable {α : Type} (keep : Option α → α → Bool)

/-- What is remembered after `x`. -/
def remember (last : Option α) (x : α) : Option α := if keep last x then some x else last

/-- The decisions about a sequence. -/
def decisions : Option α → List α → List Bool
  | _, [] => []
  | last, x :: xs => keep last x :: decisions (remember keep last x) xs

/-- Each item of a sequence, with the last one let through before it. -/
def withLast : Option α → List α → List (Option α × α)
  | _, [] => []
  | last, x :: xs => (last, x) :: withLast (remember keep last x) xs

variable {keep}

theorem decisions_eq_iff {keep' : Option α → α → Bool} {last : Option α} {xs : List α} :
    decisions keep' last xs = decisions keep last xs
      ↔ ∀ p ∈ withLast keep last xs, keep' p.1 p.2 = keep p.1 p.2 := by
  induction xs generalizing last with
  | nil => exact ⟨fun _ _ hp ↦ absurd hp List.not_mem_nil, fun _ ↦ rfl⟩
  | cons x xs ih =>
    rw [decisions, decisions, withLast, List.forall_mem_cons, List.cons.injEq]
    apply and_congr_right
    intro hagree
    rw [← ih, remember, hagree]
    rfl

/-- In an ordered sequence, what was let through before an item is not above it. -/
theorem le_of_mem_withLast [Preorder α] {last : Option α} {xs : List α}
    (hsorted : xs.Pairwise (· ≤ ·)) (hlast : ∀ a ∈ last, ∀ x ∈ xs, a ≤ x) {p : Option α × α}
    (hp : p ∈ withLast keep last xs) {a : α} (ha : a ∈ p.1) : a ≤ p.2 := by
  induction xs generalizing last with
  | nil => exact absurd hp List.not_mem_nil
  | cons x xs ih =>
    obtain ⟨hhead, htail⟩ := List.pairwise_cons.mp hsorted
    rcases List.mem_cons.mp hp with rfl | hp
    · exact hlast a ha x List.mem_cons_self
    · refine ih htail (fun b hb y hy ↦ ?_) hp
      rw [remember] at hb
      split at hb
      · obtain rfl := Option.mem_some_iff.mp hb
        exact hhead y hy
      · exact hlast b hb y (List.mem_cons_of_mem x hy)

end Streams
