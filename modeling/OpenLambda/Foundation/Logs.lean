import Mathlib.Data.List.Induction

namespace Foundation.Logs

theorem snoc_split (split : log ++ [last] = before ++ entry :: after) :
    before = log ∧ entry = last ∨ ∃ front, log = before ++ entry :: front := by
  rcases List.eq_nil_or_concat after with rfl | ⟨front,final,rfl⟩
  · obtain ⟨same,new⟩ := List.append_inj' split rfl
    cases new
    exact .inl ⟨same.symm,rfl⟩
  · have regrouped : log ++ [last] = (before ++ entry :: front) ++ [final] := by simpa using split
    exact .inr ⟨front,(List.append_inj' regrouped rfl).1⟩

theorem folded_origin {next : List β → α → List β} {log : List α} (brings : α → β → Prop)
    (step : ∀ state entry x, x ∈ next state entry → x ∈ state ∨ brings entry x)
    (member : x ∈ log.foldl next []) : ∃ entry ∈ log, brings entry x := by
  induction log using List.reverseRecOn with
  | nil => cases member
  | append_singleton log entry ih =>
      rw [List.foldl_append] at member
      rcases step _ _ _ member with older | new
      · obtain ⟨earlier,present,brought⟩ := ih older
        exact ⟨earlier,List.mem_append_left _ present,brought⟩
      · exact ⟨entry,List.mem_append_right _ (List.mem_singleton.mpr rfl),new⟩

theorem flatMap_eq_iff {kept all : α → List β} (choice : ∀ a, kept a = all a ∨ kept a = []) (items : List α) :
    items.flatMap kept = items.flatMap all ↔ ∀ a ∈ items, kept a = all a := by
  have shorter : ∀ a, (kept a).length ≤ (all a).length := by
    intro a
    rcases choice a with same | nothing
    · exact Nat.le_of_eq (congrArg _ same)
    · simp [nothing]
  have total : ∀ items : List α, (items.flatMap kept).length ≤ (items.flatMap all).length := by
    intro items
    induction items with
    | nil => exact Nat.le_refl _
    | cons a rest ih =>
        simp only [List.flatMap_cons,List.length_append]
        exact Nat.add_le_add (shorter a) ih
  constructor
  · intro same
    induction items with
    | nil => nofun
    | cons a rest ih =>
        simp only [List.flatMap_cons] at same
        have lengths := congrArg List.length same
        simp only [List.length_append] at lengths
        have first : (kept a).length = (all a).length := by
          have one := shorter a
          have others := total rest
          omega
        obtain ⟨head,tail⟩ := List.append_inj same first
        intro b member
        rcases List.mem_cons.mp member with rfl | later
        · exact head
        · exact ih tail b later
  · intro each
    induction items with
    | nil => rfl
    | cons a rest ih =>
        simp only [List.flatMap_cons]
        rw [each a (by simp),ih fun b later => each b (by simp [later])]

end Foundation.Logs
