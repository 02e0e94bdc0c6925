import Mathlib.Data.List.Infix

namespace Foundation.Runs

-- A machine is a partial step function; `none` is a step the state does not
-- admit. A schedule is a list of actions, so that every interleaving of the
-- parties is one schedule and every reachable state ends one.
def run (step : σ → α → Option σ) : σ → List α → Option σ
  | s,[] => some s
  | s,action :: rest => (step s action).bind (run step · rest)

theorem run_seen {step : σ → α → Option σ} {property : σ → Prop} [DecidablePred property]
    (seen : (run step s actions).any (fun t => decide (property t)) = true) :
    ∃ t, run step s actions = some t ∧ property t := by
  obtain ⟨t,ran,holds⟩ := (Option.any_eq_true _ _).mp seen
  exact ⟨t,ran,of_decide_eq_true holds⟩

theorem run_cons_parts {step : σ → α → Option σ} (ran : run step s (action :: rest) = some t) :
    ∃ middle, step s action = some middle ∧ run step middle rest = some t := by
  cases moved : step s action with
  | none => simp [run,moved] at ran
  | some middle => exact ⟨middle,rfl,by simpa [run,moved] using ran⟩

theorem run_trans {step : σ → α → Option σ} (first : run step s early = some middle)
    (second : run step middle late = some t) : run step s (early ++ late) = some t := by
  induction early generalizing s with
  | nil => cases first; exact second
  | cons action rest ih =>
      obtain ⟨next,moved,tail⟩ := run_cons_parts first
      simpa [run,moved] using ih tail

theorem run_preserves {step : σ → α → Option σ} (invariant : σ → Prop)
    (preserved : ∀ s action t, invariant s → step s action = some t → invariant t)
    (start : invariant s) (ran : run step s actions = some t) : invariant t := by
  induction actions generalizing s with
  | nil => cases ran; exact start
  | cons action rest ih =>
      obtain ⟨middle,moved,tail⟩ := run_cons_parts ran
      exact ih (preserved _ _ _ start moved) tail

theorem run_snoc_parts {step : σ → α → Option σ} (ran : run step s (early ++ [action]) = some t) :
    ∃ middle, run step s early = some middle ∧ step middle action = some t := by
  induction early generalizing s with
  | nil =>
      obtain ⟨middle,moved,rest⟩ := run_cons_parts ran
      cases rest
      exact ⟨s,rfl,moved⟩
  | cons first rest ih =>
      obtain ⟨next,moved,tail⟩ := run_cons_parts ran
      obtain ⟨middle,reached,last⟩ := ih tail
      exact ⟨middle,by simpa [run,moved] using reached,last⟩

theorem run_early {step : σ → α → Option σ} (ran : run step s actions = some t) (ahead : early <+: actions) :
    ∃ middle, run step s early = some middle := by
  induction early generalizing s actions with
  | nil => exact ⟨s,rfl⟩
  | cons action early ih =>
      obtain ⟨late,rfl⟩ := ahead
      obtain ⟨next,moved,tail⟩ := run_cons_parts ran
      obtain ⟨middle,reached⟩ := ih tail (List.prefix_append early late)
      exact ⟨middle,by simpa [run,moved] using reached⟩

theorem run_history {step : σ → α → Option σ} (invariant : List α → σ → Prop) (start : invariant [] s)
    (extended : ∀ early middle action t, run step s early = some middle → invariant early middle →
      step middle action = some t → invariant (early ++ [action]) t)
    (ran : run step s actions = some t) : invariant actions t := by
  induction actions using List.reverseRecOn generalizing t with
  | nil => cases ran; exact start
  | append_singleton early action ih =>
      obtain ⟨middle,reached,moved⟩ := run_snoc_parts ran
      exact extended early middle action t reached (ih reached) moved

-- Every action of the schedule meets the guard in the state it is taken in.
def Meets (step : σ → α → Option σ) (guard : σ → α → Prop) : σ → List α → Prop
  | _,[] => True
  | s,action :: rest => guard s action ∧ ∀ t, step s action = some t → Meets step guard t rest

instance Meets.decidable (step : σ → α → Option σ) (guard : σ → α → Prop) [∀ s action, Decidable (guard s action)] :
    ∀ s actions, Decidable (Meets step guard s actions)
  | _,[] => isTrue trivial
  | s,action :: rest => match moved : step s action with
      | none => decidable_of_iff (guard s action) ⟨fun met => ⟨met,fun t same => by simp [moved] at same⟩,fun met => met.1⟩
      | some t =>
          have : Decidable (Meets step guard t rest) := Meets.decidable step guard t rest
          decidable_of_iff (guard s action ∧ Meets step guard t rest)
            ⟨fun met => ⟨met.1,fun u same => by cases moved.symm.trans same; exact met.2⟩,
              fun met => ⟨met.1,met.2 t moved⟩⟩

theorem run_preserves_guarded {step : σ → α → Option σ} (invariant : σ → Prop) {guard : σ → α → Prop}
    (preserved : ∀ s action t, invariant s → guard s action → step s action = some t → invariant t)
    (start : invariant s) (meets : Meets step guard s actions)
    (ran : run step s actions = some t) : invariant t := by
  induction actions generalizing s with
  | nil => cases ran; exact start
  | cons action rest ih =>
      obtain ⟨middle,moved,tail⟩ := run_cons_parts ran
      exact ih (preserved _ _ _ start meets.1 moved) (meets.2 _ moved) tail

theorem meets_and {step : σ → α → Option σ} {first second : σ → α → Prop} (one : Meets step first s actions)
    (other : Meets step second s actions) : Meets step (fun s action => first s action ∧ second s action) s actions := by
  induction actions generalizing s with
  | nil => trivial
  | cons action rest ih => exact ⟨⟨one.1,other.1⟩,fun t moved => ih (one.2 t moved) (other.2 t moved)⟩

theorem meets_of_last {step : σ → α → Option σ} (property : σ → Prop) {guard : σ → α → Prop}
    (back : ∀ s action t, step s action = some t → property t → property s ∧ guard s action)
    (ran : run step s actions = some t) (last : property t) : property s ∧ Meets step guard s actions := by
  induction actions generalizing s with
  | nil => cases ran; exact ⟨last,trivial⟩
  | cons action rest ih =>
      obtain ⟨middle,moved,tail⟩ := run_cons_parts ran
      obtain ⟨before,later⟩ := ih tail
      obtain ⟨start,met⟩ := back _ _ _ moved before
      refine ⟨start,met,?_⟩
      intro other same
      rw [moved] at same
      cases same
      exact later

theorem meets_of_forall {step : σ → α → Option σ} {guard : σ → α → Prop}
    (each : ∀ action, action ∈ actions → ∀ s, guard s action) (s : σ) : Meets step guard s actions := by
  induction actions generalizing s with
  | nil => trivial
  | cons action rest ih =>
      exact ⟨each action (by simp) s,fun t _ => ih (fun other later => each other (by simp [later])) t⟩

theorem meets_iff_visited {step : σ → α → Option σ} {guard : σ → α → Prop} : Meets step guard s actions ↔
    ∀ early action t, early ++ [action] <+: actions → run step s early = some t → guard t action := by
  induction actions generalizing s with
  | nil => simp [Meets]
  | cons first rest ih =>
      constructor
      · rintro ⟨met,later⟩ early action t ahead ran
        cases early with
        | nil =>
            cases ran
            cases (List.prefix_cons_iff.mp ahead) with
            | inl wrong => cases wrong
            | inr tail => obtain ⟨_,same,_⟩ := tail; cases same; exact met
        | cons other early =>
            obtain ⟨same,tail⟩ := List.cons_prefix_cons.mp ahead
            subst same
            obtain ⟨middle,moved,rest⟩ := run_cons_parts ran
            exact ih.mp (later middle moved) early action t tail rest
      · intro visited
        refine ⟨visited [] first s (by simp) rfl,?_⟩
        intro t moved
        apply ih.mpr
        intro early action u ahead ran
        exact visited (first :: early) action u (List.cons_prefix_cons.mpr ⟨rfl,ahead⟩) (by simpa [run,moved] using ran)

theorem meets_of_visited {step : σ → α → Option σ} {property : σ → Prop}
    (visited : ∀ early t, early <+: actions → run step s early = some t → property t) :
    Meets step (fun s _ => property s) s actions :=
  meets_iff_visited.mpr fun early action t ahead ran => visited early t ((List.prefix_append early [action]).trans ahead) ran

theorem meets_early {step : σ → α → Option σ} {guard : σ → α → Prop} (meets : Meets step guard s actions)
    (ahead : early <+: actions) : Meets step guard s early :=
  meets_iff_visited.mpr fun first action t start ran => meets_iff_visited.mp meets first action t (start.trans ahead) ran

theorem meets_append {step : σ → α → Option σ} {guard : σ → α → Prop} (early : List α)
    (meets : Meets step guard s (early ++ late)) (ran : run step s early = some t) : Meets step guard s early ∧ Meets step guard t late := by
  induction early generalizing s with
  | nil => cases ran; exact ⟨trivial,meets⟩
  | cons action rest ih =>
      obtain ⟨middle,moved,tail⟩ := run_cons_parts ran
      obtain ⟨first,last⟩ := ih (meets.2 middle moved) tail
      refine ⟨⟨meets.1,?_⟩,last⟩
      intro other same
      cases moved.symm.trans same
      exact first

-- However the machine goes on, it comes to the goal: no step is ever missing on
-- the way, and no schedule avoids it.
inductive Inevitable (step : σ → α → Option σ) (goal : σ → Prop) : σ → Prop where
  | now (here : goal s) : Inevitable step goal s
  | later (moves : ∃ action t, step s action = some t)
      (each : ∀ action t, step s action = some t → Inevitable step goal t) : Inevitable step goal s

theorem inevitable_of_rank {step : σ → α → Option σ} {goal : σ → Prop} (invariant : σ → Prop) (rank : σ → ρ)
    {less : ρ → ρ → Prop} (founded : WellFounded less)
    (moves : ∀ s, invariant s → goal s ∨ ∃ action t, step s action = some t)
    (falls : ∀ s action t, invariant s → step s action = some t → invariant t ∧ less (rank t) (rank s))
    (s : σ) (start : invariant s) : Inevitable step goal s := by
  induction (InvImage.wf rank founded).apply s with
  | intro s _ ih =>
      rcases moves s start with here | next
      · exact .now here
      · refine .later next ?_
        intro action t moved
        obtain ⟨kept,fell⟩ := falls s action t start moved
        exact ih t fell kept

theorem lex_founded : WellFounded (Prod.Lex (· < ·) (· < ·) : Nat × Nat → Nat × Nat → Prop) :=
  (Prod.lex Nat.lt_wfRel Nat.lt_wfRel).wf

theorem not_inevitable {step : σ → α → Option σ} {goal : σ → Prop} (avoids : σ → Prop)
    (missed : ∀ s, avoids s → ¬goal s)
    (next : ∀ s, avoids s → (∀ action, step s action = none) ∨ ∃ action t, step s action = some t ∧ avoids t)
    (start : avoids s) : ¬Inevitable step goal s := by
  intro reaches
  induction reaches with
  | now here => exact missed _ start here
  | later moves each ih =>
      rcases next _ start with stuck | ⟨action,t,moved,kept⟩
      · obtain ⟨action,t,moved⟩ := moves
        cases (stuck action).symm.trans moved
      · exact ih action t moved kept

theorem inevitable_run {step : σ → α → Option σ} {goal : σ → Prop} (final : ∀ s action, goal s → step s action = none)
    (reaches : Inevitable step goal s) (ran : run step s actions = some t) : Inevitable step goal t := by
  induction actions generalizing s with
  | nil => cases ran; exact reaches
  | cons action rest ih =>
      obtain ⟨middle,moved,tail⟩ := run_cons_parts ran
      cases reaches with
      | now here => cases (final s action here).symm.trans moved
      | later moves each => exact ih (each action middle moved) tail

end Foundation.Runs
