import Mathlib.Algebra.BigOperators.Group.Finset.Piecewise
import Mathlib.Algebra.Order.BigOperators.Group.Finset
import Mathlib.Tactic.Ring

namespace Foundation.Tally
open Finset

-- A family of parties `0 .. n-1`, each contributing a weight. Steps of a
-- machine change the parties one at a time, so the whole account moves by the
-- difference at the party that stepped.
def tally (n : Nat) (weight : Nat → Int) : Int := ∑ i ∈ range n, weight i

theorem tally_zero (weight : Nat → Int) : tally 0 weight = 0 := by simp [tally]

theorem tally_succ (n : Nat) (weight : Nat → Int) : tally (n+1) weight = tally n weight + weight n := by
  simp [tally,sum_range_succ]

theorem tally_congr {first second : Nat → Int} (same : ∀ i, i < n → first i = second i) :
    tally n first = tally n second :=
  sum_congr rfl fun i member => same i (mem_range.mp member)

theorem tally_change {first second : Nat → Int} (within : k < n)
    (same : ∀ i, i ≠ k → first i = second i) :
    tally n second = tally n first - first k + second k := by
  have member : k ∈ range n := mem_range.mpr within
  have rest : ∑ i ∈ (range n).erase k, second i = ∑ i ∈ (range n).erase k, first i :=
    sum_congr rfl fun i present => (same i (mem_erase.mp present).1).symm
  have left := add_sum_erase (range n) first member
  have right := add_sum_erase (range n) second member
  unfold tally
  rw [← left,← right,rest]
  ring

theorem tally_update {β : Type} (within : k < n) (family : Nat → β) (value : β) (weight : Nat → β → Int) :
    tally n (fun i => weight i (Function.update family k value i)) =
      tally n (fun i => weight i (family i)) - weight k (family k) + weight k value := by
  have same : ∀ i, i ≠ k → weight i (family i) = weight i (Function.update family k value i) := by
    intro i different
    rw [Function.update_of_ne different]
  have moved := tally_change within same
  simpa using moved

theorem tally_update_two {β : Type} (first : k < n) (second : j < n) (different : j ≠ k) (family : Nat → β)
    (one other : β) (weight : Nat → β → Int) :
    tally n (fun i => weight i (Function.update (Function.update family k one) j other i)) =
      tally n (fun i => weight i (family i)) - weight k (family k) + weight k one - weight j (family j) + weight j other := by
  rw [tally_update second (Function.update family k one) other weight,tally_update first family one weight,
    Function.update_of_ne different]

theorem tally_nonneg {weight : Nat → Int} (each : ∀ i, i < n → 0 ≤ weight i) : 0 ≤ tally n weight :=
  sum_nonneg fun i member => each i (mem_range.mp member)

theorem tally_mono {first second : Nat → Int} (each : ∀ i, i < n → first i ≤ second i) :
    tally n first ≤ tally n second :=
  sum_le_sum fun i member => each i (mem_range.mp member)

theorem le_tally {weight : Nat → Int} (each : ∀ i, i < n → 0 ≤ weight i) (within : k < n) :
    weight k ≤ tally n weight :=
  single_le_sum (fun i member => each i (mem_range.mp member)) (mem_range.mpr within)

theorem tally_none (n : Nat) : tally n (fun _ => 0) = 0 := sum_const_zero

theorem tally_single (within : k < n) (value : Int) : tally n (fun i => if i = k then value else 0) = value := by
  simp [tally,within]

theorem tally_add (n : Nat) (first second : Nat → Int) :
    tally n (fun i => first i + second i) = tally n first + tally n second := sum_add_distrib

end Foundation.Tally
