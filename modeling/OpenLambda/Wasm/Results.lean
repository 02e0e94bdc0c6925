import OpenLambda.Wasm.Instances

namespace OpenLambda.Functions
open Foundation.Hands Foundation.Runs

def Carries (set : List (List UInt8)) (body : List UInt8) : Prop :=
  set = [] ∧ body = [] ∨ set = [body]

def Stage.Settled (slot : Option (List UInt8)) (set : List (List UInt8)) : Stage → Prop
  | .unborn => slot = none ∧ set = []
  | .waiting | .creating _ | .running _ | .returned _ => set = slot.toList
  | .answering _ (.ok body) | .pushing _ (.ok body) | .finished (.ok body) => Carries set body
  | _ => True

structure Worker.Separate (s : Worker) : Prop where
  handle : ∀ r i, (s.request r).stage.calling = some i → (s.inst i).handle = r
  settled : ∀ r, (s.request r).stage.Settled (s.slot r) (s.request r).set

theorem init_separate : init.Separate where
  handle := by
    intro r i calls
    cases calls
  settled := fun _ => ⟨rfl,rfl⟩

theorem separate_at {s t : Worker} (separate : s.Separate) (r : Nat)
    (request : ∀ q, q ≠ r → t.request q = s.request q) (slot : ∀ q, q ≠ r → t.slot q = s.slot q)
    (inst : ∀ q i, q ≠ r → (s.request q).stage.calling = some i → t.inst i = s.inst i)
    (handle : ∀ i, (t.request r).stage.calling = some i → (t.inst i).handle = r)
    (settled : (t.request r).stage.Settled (t.slot r) (t.request r).set) : t.Separate where
  handle := by
    intro q i calls
    by_cases same : q = r
    · subst q
      exact handle i calls
    · rw [request q same] at calls
      rw [inst q i same calls]
      exact separate.handle q i calls
  settled := by
    intro q
    by_cases same : q = r
    · subst q
      exact settled
    · rw [request q same,slot q same]
      exact separate.settled q

theorem goto_separate {s : Worker} (separate : s.Separate) (r : Nat) (stage : Stage)
    (calls : ∀ i, stage.calling = some i → (s.request r).stage.calling = some i)
    (settled : stage.Settled (s.slot r) (s.request r).set) : (s.goto r stage).Separate := by
  apply separate_at separate r
  · exact fun q other => Function.update_of_ne other _ _
  · exact fun q _ => rfl
  · exact fun q i _ _ => rfl
  · unfold Worker.goto
    dsimp only
    rw [Function.update_self]
    exact fun i now => separate.handle r i (calls i now)
  · unfold Worker.goto
    dsimp only
    rw [Function.update_self]
    exact settled

theorem execute_separate (separate : Worker.Separate s) (moved : Worker.execute loaded s r function = some t) :
    t.Separate := by
  obtain ⟨here,rfl⟩ := execute_parts moved
  have fresh := separate.settled r
  rw [here] at fresh
  apply separate_at separate r
  · exact fun q other => Function.update_of_ne other _ _
  · exact fun q _ => rfl
  · exact fun q i _ _ => rfl
  · dsimp only
    rw [Function.update_self]
    cases loaded function <;> intro i calls <;> cases calls
  · dsimp only
    rw [Function.update_self,fresh.1]
    cases loaded function
    · trivial
    · rfl

-- The handle of an idle instance may be that of any earlier request; no call of
-- another request goes on in it.
theorem pop_separate {s : Worker} (owned : s.Owned) (separate : s.Separate) (here : (s.request r).stage = .waiting)
    (front : s.idle (s.request r).function = i :: rest) :
    Worker.Separate {s.goto r (.running i) with
      idle := Function.update s.idle (s.request r).function rest
      inst := Function.update s.inst i {s.inst i with handle := r}} := by
  have waiting : i ∈ s.stock (s.request r).function := by
    unfold Worker.stock
    rw [front]
    exact List.mem_cons_self
  have fresh := separate.settled r
  rw [here] at fresh
  apply separate_at separate r
  · exact fun q other => Function.update_of_ne other _ _
  · exact fun q _ => rfl
  · intro q j _ calls
    apply Function.update_of_ne
    rintro rfl
    exact stock_not_held owned waiting q (calling_holding calls)
  · unfold Worker.goto
    dsimp only
    rw [Function.update_self]
    rintro j ⟨⟩
    rw [Function.update_self]
  · unfold Worker.goto
    dsimp only
    rw [Function.update_self]
    exact fresh

theorem new_separate {s : Worker} (owned : s.Owned) (separate : s.Separate) (here : (s.request r).stage = .waiting) :
    Worker.Separate {s.goto r (.creating s.nextInstance) with
      inst := Function.update s.inst s.nextInstance ⟨(s.request r).function,r⟩
      nextInstance := s.nextInstance + 1} := by
  have fresh := separate.settled r
  rw [here] at fresh
  apply separate_at separate r
  · exact fun q other => Function.update_of_ne other _ _
  · exact fun q _ => rfl
  · intro q j _ calls
    apply Function.update_of_ne
    rintro rfl
    exact Nat.lt_irrefl _ (held_created owned (calling_holding calls)).2.1
  · unfold Worker.goto
    dsimp only
    rw [Function.update_self]
    rintro j ⟨⟩
    rw [Function.update_self]
  · unfold Worker.goto
    dsimp only
    rw [Function.update_self]
    exact fresh

theorem calling_result {s : Worker} (separate : s.Separate) (calls : (s.request r).stage.calling = some i) :
    (s.inst i).handle = r ∧ (s.request r).set = (s.slot r).toList := by
  refine ⟨separate.handle r i calls,?_⟩
  have settled := separate.settled r
  cases here : (s.request r).stage with
  | creating j | running j =>
      rw [here] at settled
      exact settled
  | unborn | waiting | returned j | answering j response | pushing j response | finished response | dropped =>
      rw [here] at calls
      cases calls

theorem discard_separate {s : Worker} (separate : s.Separate) (r i : Nat) (stage : Stage) (stops : stage.calling = none)
    (settled : stage.Settled (s.slot r) (s.request r).set) : ((s.discard r i).goto r stage).Separate := by
  have kept : (s.discard r i).Separate := ⟨separate.handle,separate.settled⟩
  refine goto_separate kept r stage ?_ settled
  intro j calls
  cases stops.symm.trans calls

theorem setResultOf_separate {s : Worker} (separate : s.Separate) (calls : (s.request r).stage.calling = some i)
    (bytes : List UInt8) : (s.setResultOf r i bytes).Separate := by
  obtain ⟨mine,set⟩ := calling_result separate calls
  unfold Worker.setResultOf
  rw [mine]
  split
  · exact discard_separate separate r i .dropped rfl trivial
  · rename_i empty
    rw [empty] at set
    apply separate_at separate r
    · exact fun q other => Function.update_of_ne other _ _
    · exact fun q other => Function.update_of_ne other _ _
    · exact fun q j _ _ => rfl
    · dsimp only
      rw [Function.update_self]
      exact separate.handle r
    · dsimp only
      rw [Function.update_self,Function.update_self]
      dsimp only
      rw [set]
      cases here : (s.request r).stage with
      | creating j | running j => rfl
      | unborn | waiting | returned j | answering j response | pushing j response | finished response | dropped =>
          rw [here] at calls
          cases calls

theorem take_separate (separate : Worker.Separate s) (moved : Worker.take s r = some t) : t.Separate := by
  obtain ⟨i,here,rfl⟩ := take_parts moved
  have settled := separate.settled r
  rw [here] at settled
  apply separate_at separate r
  · exact fun q other => Function.update_of_ne other _ _
  · exact fun q other => Function.update_of_ne other _ _
  · exact fun q j _ _ => rfl
  · unfold Worker.goto
    dsimp only
    rw [Function.update_self]
    rintro j ⟨⟩
  · unfold Worker.goto
    dsimp only
    rw [Function.update_self,Function.update_self]
    change Carries (s.request r).set ((s.slot r).getD [])
    rw [show (s.request r).set = (s.slot r).toList from settled]
    cases s.slot r with
    | none => exact .inl ⟨rfl,rfl⟩
    | some bytes => exact .inr rfl

theorem step_separate {s t : Worker} (owned : s.Owned) (separate : s.Separate)
    (moved : step loaded s action = some t) : t.Separate := by
  have settled := separate.settled
  cases action with
  | execute r function => exact execute_separate separate moved
  | getIdleInstance r =>
      obtain ⟨here,⟨i,rest,front,rfl⟩ | rfl⟩ := getIdleInstance_parts moved
      · exact pop_separate owned separate here front
      · exact new_separate owned separate here
  | created r =>
      obtain ⟨i,here,rfl⟩ := created_parts moved
      have mine := settled r
      rw [here] at mine
      exact goto_separate separate r _ (fun j calls => by rw [here]; exact calls) mine
  | setResult r bytes =>
      obtain ⟨i,calls,rfl⟩ := setResult_parts moved
      exact setResultOf_separate separate calls bytes
  | trap r =>
      obtain ⟨i,here,rfl⟩ := trap_parts moved
      exact goto_separate separate r _ (by rintro j ⟨⟩) trivial
  | returns r =>
      obtain ⟨i,here,rfl⟩ := returns_parts moved
      have mine := settled r
      rw [here] at mine
      exact goto_separate separate r _ (by rintro j ⟨⟩) mine
  | take r => exact take_separate separate moved
  | markIdle r =>
      obtain ⟨i,response,here,rfl | rfl⟩ := markIdle_parts moved
      · have mine := settled r
        rw [here] at mine
        exact goto_separate separate r _ (by rintro j ⟨⟩) (by cases response <;> exact mine)
      · have mine := settled r
        rw [here] at mine
        exact discard_separate separate r i _ rfl (by cases response <;> exact mine)
  | push r =>
      obtain ⟨i,response,here,rfl⟩ := push_parts moved
      have mine := settled r
      rw [here] at mine
      have gone : (s.goto r (.finished response)).Separate :=
        goto_separate separate r _ (by rintro j ⟨⟩) (by cases response <;> exact mine)
      exact ⟨gone.handle,gone.settled⟩
  | abort r =>
      rcases abort_parts moved with ⟨here,rfl⟩ | ⟨i,calls,rfl⟩
      · exact goto_separate separate r _ (by rintro j ⟨⟩) trivial
      · exact discard_separate separate r i _ rfl trivial

theorem reached_separate (reached : run (step loaded) init actions = some s) : s.Separate := by
  have both : s.Owned ∧ s.Separate := by
    refine run_preserves (fun s : Worker => s.Owned ∧ s.Separate) ?_ ⟨init_owned,init_separate⟩ reached
    exact fun _ _ _ before moved => ⟨step_owned before.1 moved,step_separate before.1 before.2 moved⟩
  exact both.2

def Action.caller : Action → Nat
  | .execute r _ | .getIdleInstance r | .created r | .setResult r _ | .trap r | .returns r | .take r | .markIdle r
  | .push r | .abort r => r

def Action.bytes : Action → Option (List UInt8)
  | .setResult _ bytes => some bytes
  | _ => none

def Action.passed (r : Nat) (action : Action) : Option (List UInt8) :=
  if action.caller = r then action.bytes else none

theorem step_request {s t : Worker} (separate : s.Separate) (moved : step loaded s action = some t) :
    ∃ req, t.request = Function.update s.request action.caller req ∧ (s.request action.caller).stage ≠ .dropped ∧
      (req.stage ≠ .dropped → req.set = (s.request action.caller).set ++ action.bytes.toList) := by
  have quiet : ∀ set : List (List UInt8), set = set ++ (none : Option (List UInt8)).toList := fun set =>
    (List.append_nil set).symm
  cases action with
  | execute r function =>
      obtain ⟨here,rfl⟩ := execute_parts moved
      have fresh := separate.settled r
      rw [here] at fresh
      exact ⟨_,rfl,by simp [Action.caller,here],fun _ => by simp [Action.caller,Action.bytes,fresh.2]⟩
  | getIdleInstance r =>
      obtain ⟨here,⟨i,rest,_,rfl⟩ | rfl⟩ := getIdleInstance_parts moved
      · exact ⟨_,rfl,by simp [Action.caller,here],fun _ => quiet _⟩
      · exact ⟨_,rfl,by simp [Action.caller,here],fun _ => quiet _⟩
  | created r =>
      obtain ⟨i,here,rfl⟩ := created_parts moved
      exact ⟨_,rfl,by simp [Action.caller,here],fun _ => quiet _⟩
  | setResult r bytes =>
      obtain ⟨i,calls,rfl⟩ := setResult_parts moved
      have lives : (s.request r).stage ≠ .dropped := by
        intro gone
        rw [gone] at calls
        cases calls
      unfold Worker.setResultOf
      split
      · exact ⟨_,rfl,lives,fun wrong => absurd rfl wrong⟩
      · exact ⟨_,rfl,lives,fun _ => rfl⟩
  | trap r =>
      obtain ⟨i,here,rfl⟩ := trap_parts moved
      exact ⟨_,rfl,by simp [Action.caller,here],fun _ => quiet _⟩
  | returns r =>
      obtain ⟨i,here,rfl⟩ := returns_parts moved
      exact ⟨_,rfl,by simp [Action.caller,here],fun _ => quiet _⟩
  | take r =>
      obtain ⟨i,here,rfl⟩ := take_parts moved
      exact ⟨_,rfl,by simp [Action.caller,here],fun _ => quiet _⟩
  | markIdle r =>
      obtain ⟨i,response,here,rfl | rfl⟩ := markIdle_parts moved
      · exact ⟨_,rfl,by simp [Action.caller,here],fun _ => quiet _⟩
      · exact ⟨_,rfl,by simp [Action.caller,here],fun _ => quiet _⟩
  | push r =>
      obtain ⟨i,response,here,rfl⟩ := push_parts moved
      exact ⟨_,rfl,by simp [Action.caller,here],fun _ => quiet _⟩
  | abort r =>
      rcases abort_parts moved with ⟨here,rfl⟩ | ⟨i,calls,rfl⟩
      · exact ⟨_,rfl,by simp [Action.caller,here],fun _ => quiet _⟩
      · refine ⟨_,rfl,?_,fun _ => quiet _⟩
        intro gone
        rw [show (s.request r).stage = .dropped from gone] at calls
        cases calls

theorem step_set {s t : Worker} (separate : s.Separate) (moved : step loaded s action = some t)
    (lives : (t.request r).stage ≠ .dropped) : (s.request r).stage ≠ .dropped ∧
    (t.request r).set = (s.request r).set ++ (action.passed r).toList := by
  obtain ⟨req,put,lived,set⟩ := step_request separate moved
  unfold Action.passed
  rw [put] at lives ⊢
  by_cases same : r = action.caller
  · subst r
    rw [Function.update_self] at lives ⊢
    rw [if_pos rfl]
    exact ⟨lived,set lives⟩
  · rw [Function.update_of_ne same] at lives ⊢
    rw [if_neg (Ne.symm same)]
    exact ⟨lives,(List.append_nil _).symm⟩

theorem reached_set (reached : run (step loaded) init actions = some s) (lives : (s.request r).stage ≠ .dropped) :
    (s.request r).set = actions.filterMap (Action.passed r) := by
  refine run_history (fun actions (s : Worker) => (s.request r).stage ≠ .dropped →
    (s.request r).set = actions.filterMap (Action.passed r)) (fun _ => rfl) ?_ reached lives
  intro early middle action t ran before moved lives
  obtain ⟨lived,set⟩ := step_set (reached_separate ran) moved lives
  rw [set,before lived,List.filterMap_append]
  cases passes : action.passed r <;> simp [passes]

theorem requests_separate (loaded : Nat → Bool) (actions : List Action) (s : Worker)
    (reached : run (step loaded) init actions = some s) :
    (∀ fn i, s.Created fn i → s.OnePlace i) ∧ (∀ fn i, i ∈ s.idle fn → s.Created fn i) ∧
      (∀ r i, (s.request r).stage.holding = some i → s.Created (s.request r).function i) ∧
      (∀ r body, (s.request r).stage = .finished (.ok body) → Carries (actions.filterMap (Action.passed r)) body) ∧
      ∀ r bytes t, step loaded s (.setResult r bytes) = some t → (t.request r).stage = .dropped →
        actions.filterMap (Action.passed r) ≠ [] := by
  have owned := reached_owned reached
  have separate := reached_separate reached
  refine ⟨fun fn i known => created_onePlace owned known,?_,fun r i holds => held_created owned holds,?_,?_⟩
  · exact fun fn i idle => stock_created owned (List.mem_append_left _ idle)
  · intro r body done
    have settled := separate.settled r
    rw [done] at settled
    rw [← reached_set reached (by simp [done])]
    exact settled
  · intro r bytes t moved refused
    obtain ⟨i,calls,rfl⟩ := setResult_parts moved
    obtain ⟨mine,set⟩ := calling_result separate calls
    have lives : (s.request r).stage ≠ .dropped := by
      intro gone
      rw [gone] at calls
      cases calls
    rw [← reached_set reached lives,set]
    intro empty
    rw [Option.toList_eq_nil_iff] at empty
    unfold Worker.setResultOf at refused
    rw [mine,empty] at refused
    simp [lives] at refused

def reused : List Action :=
  [.execute 0 7,.getIdleInstance 0,.created 0,.setResult 0 [1],.trap 0,.markIdle 0,.push 0,.execute 1 7,.execute 2 7,
    .getIdleInstance 1,.getIdleInstance 2,.setResult 1 [2],.returns 1,.take 1,.markIdle 1,.push 1]

theorem requests_separate_reused : ∃ s, run (step fun _ => true) init reused = some s ∧
    (s.request 1).stage = .finished (.ok [2]) ∧ (s.request 2).stage = .creating 2 ∧ s.idle 7 = [1] ∧
      (∀ fn i, s.Created fn i → s.OnePlace i) ∧ Carries (reused.filterMap (Action.passed 1)) [2] := by
  have seen : (run (step fun _ => true) init reused).any (fun s => decide ((s.request 1).stage = .finished (.ok [2]) ∧
      (s.request 2).stage = .creating 2 ∧ s.idle 7 = [1])) = true := by decide
  obtain ⟨s,ran,done,creating,idle⟩ := run_seen seen
  obtain ⟨places,_,_,carries,_⟩ := requests_separate _ reused s ran
  exact ⟨s,ran,done,creating,idle,places,carries 1 [2] done⟩

end OpenLambda.Functions
