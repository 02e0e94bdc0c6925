import Mathlib.Data.Set.Basic

namespace Foundation.Waits

section Deadlock
variable {α : Type} {waits : α → α → Prop}

-- Parties each of which waits for one of them.
def Deadlocked (waits : α → α → Prop) (parties : Set α) : Prop :=
  parties.Nonempty ∧ ∀ i ∈ parties, ∃ j ∈ parties, waits i j

theorem deadlocked_self (self : waits i i) : Deadlocked waits {i} := by
  refine ⟨⟨i,rfl⟩,?_⟩
  intro j member
  cases member
  exact ⟨i,rfl,self⟩

theorem deadlocked_rank (rank : α → Nat) (rising : ∀ i j k, waits i j → waits j k → rank i < rank j)
    (deadlocked : Deadlocked waits parties) (n : Nat) : ∃ i ∈ parties, n ≤ rank i := by
  obtain ⟨⟨first,member⟩,closed⟩ := deadlocked
  induction n with
  | zero => exact ⟨first,member,Nat.zero_le _⟩
  | succ n ih =>
      obtain ⟨i,here,high⟩ := ih
      obtain ⟨j,there,waiting⟩ := closed i here
      obtain ⟨k,_,next⟩ := closed j there
      exact ⟨j,there,Nat.lt_of_le_of_lt high (rising i j k waiting next)⟩

theorem not_deadlocked (rank : α → Nat) (bound : Nat) (bounded : ∀ i, rank i ≤ bound)
    (rising : ∀ i j k, waits i j → waits j k → rank i < rank j) (parties : Set α) : ¬ Deadlocked waits parties := by
  intro deadlocked
  obtain ⟨i,_,high⟩ := deadlocked_rank rank rising deadlocked (bound + 1)
  exact absurd (bounded i) (Nat.not_le_of_lt high)

end Deadlock

end Foundation.Waits
