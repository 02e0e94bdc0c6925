import OpenLambda.Sandbox.CgroupPool

namespace OpenLambda.Cgroups
open Foundation.Hands Foundation.Runs

inductive Place where
  | ready
  | recycled
  | removed
  | hand (i : Option Nat)

def Pool.At (s : Pool) (cg : Nat) : Place → Prop
  | .ready => cg ∈ s.ready
  | .recycled => cg ∈ s.recycled
  | .removed => cg ∈ s.removed
  | .hand i => s.hand i = some cg

theorem stock_nodup (owned : Pool.Owned s) : s.ready.Nodup ∧ s.recycled.Nodup ∧ s.removed.Nodup ∧
    (∀ cg, cg ∈ s.ready → cg ∉ s.recycled ∧ cg ∉ s.removed) ∧ ∀ cg, cg ∈ s.recycled → cg ∉ s.removed := by
  obtain ⟨ready,rest,apart⟩ := List.nodup_append'.mp owned.custody.distinct
  obtain ⟨recycled,removed,differ⟩ := List.nodup_append'.mp rest
  refine ⟨ready,recycled,removed,?_,fun cg one other => differ one other⟩
  intro cg here
  exact ⟨fun there => apart here (List.mem_append_left _ there),fun there => apart here (List.mem_append_right _ there)⟩

theorem held_apart (owned : Pool.Owned s) (holds : s.hand i = some cg) :
    (∀ j, s.hand j = some cg → j = i) ∧ cg ∉ s.ready ∧ cg ∉ s.recycled ∧ cg ∉ s.removed := by
  have absent := owned.custody.outside i cg holds
  simp only [Pool.stock,List.mem_append,not_or] at absent
  exact ⟨fun j other => owned.custody.apart j i cg other holds,absent⟩

theorem hand_place (owned : Pool.Owned s) (holds : s.hand i = some cg) (here : s.At cg place) : place = .hand i := by
  obtain ⟨alone,ready,recycled,removed⟩ := held_apart owned holds
  cases place with
  | ready => exact absurd here ready
  | recycled => exact absurd here recycled
  | removed => exact absurd here removed
  | hand j => rw [alone j here]

theorem one_place (owned : Pool.Owned s) (first : s.At cg place) (second : s.At cg other) : place = other := by
  obtain ⟨_,_,_,ready,recycled⟩ := stock_nodup owned
  cases place with
  | hand i => exact (hand_place owned first second).symm
  | ready =>
      cases other with
      | ready => rfl
      | recycled => exact absurd second (ready cg first).1
      | removed => exact absurd second (ready cg first).2
      | hand i => exact hand_place owned second first
  | recycled =>
      cases other with
      | ready => exact absurd first (ready cg second).1
      | recycled => rfl
      | removed => exact absurd second (recycled cg first)
      | hand i => exact hand_place owned second first
  | removed =>
      cases other with
      | ready => exact absurd first (ready cg second).2
      | recycled => exact absurd first (recycled cg second)
      | removed => rfl
      | hand i => exact hand_place owned second first

theorem some_place (owned : Pool.Owned s) (created : s.Created cg) : ∃ place, s.At cg place := by
  rcases owned.found cg created with member | ⟨i,holds⟩
  · rcases List.mem_append.mp member with ready | later
    · exact ⟨.ready,ready⟩
    · rcases List.mem_append.mp later with recycled | removed
      · exact ⟨.recycled,recycled⟩
      · exact ⟨.removed,removed⟩
  · exact ⟨.hand i,holds⟩

def Action.container : Action → Option Nat
  | .getCg c _ | .receive c | .getReturns c | .pause c _ | .unpause c | .killAndRelease c | .remove c | .credit c => some c
  | _ => none

def Action.isGetCg : Action → Bool
  | .getCg _ _ => true
  | _ => false

theorem task_step (nobody : action.container = none) (moved : step conf s action = some t) :
    t.container = s.container ∧ t.limit = s.limit := by
  cases action with
  | getCg | receive | getReturns | pause | unpause | killAndRelease | remove | credit => cases nobody
  | _ =>
      simp only [step,Pool.fetch,Pool.offer,Pool.quit,Pool.stop,Pool.emptyReady,Pool.emptyRecycled,Pool.drop,
        Pool.breakEmpty,Pool.finish,Pool.destroy,Pool.destroyCg] at moved
      split at moved <;> try split at moved
      all_goals cases moved
      all_goals exact ⟨rfl,rfl⟩

theorem container_step (mine : action.container = some c) (moved : step conf s action = some t) :
    t.task = s.task ∧ t.closer = s.closer := by
  cases action with
  | getCg | receive | getReturns | pause | unpause | killAndRelease | remove | credit =>
      simp only [step,Pool.getCg,Pool.receive,Pool.getReturns,Pool.pause,Pool.unpause,Pool.killAndRelease,Pool.remove,
        Pool.credit] at moved
      split at moved <;> try split at moved
      all_goals cases moved
      all_goals exact ⟨rfl,rfl⟩
  | _ => cases mine

def Pool.Quiet (s : Pool) : Prop := ∀ c, (s.container c).stage.holding = none ∧ (s.container c).stage ≠ .asking

theorem quiet_credits (quiet : Pool.Quiet s) (mine : action.container = some c) (calm : action.isGetCg = false)
    (moved : step conf s action = some t) : s.credit c = some t := by
  have idle : ∀ d, (s.container d).stage ≠ .asking ∧ (∀ cg, (s.container d).stage ≠ .taken cg) ∧
      (∀ cg, (s.container d).stage ≠ .running cg) ∧ ∀ cg, (s.container d).stage ≠ .removing cg := by
    intro d
    obtain ⟨holding,asking⟩ := quiet d
    refine ⟨asking,?_,?_,?_⟩
    all_goals
      intro cg here
      rw [here] at holding
      cases holding
  cases action with
  | getCg c mb => cases calm
  | credit d => cases mine; exact moved
  | receive d =>
      simp only [step,Pool.receive] at moved
      split at moved
      · rename_i here _
        exact absurd here (idle d).1
      · cases moved
  | getReturns d =>
      simp only [step,Pool.getReturns] at moved
      split at moved
      · rename_i cg here
        exact absurd here ((idle d).2.1 cg)
      · cases moved
  | pause d _ =>
      simp only [step,Pool.pause] at moved
      split at moved
      · rename_i cg here
        exact absurd here ((idle d).2.2.1 cg)
      · cases moved
  | unpause d =>
      simp only [step,Pool.unpause] at moved
      split at moved
      · rename_i cg here
        exact absurd here ((idle d).2.2.1 cg)
      · cases moved
  | killAndRelease d =>
      simp only [step,Pool.killAndRelease] at moved
      split at moved
      · rename_i cg here
        exact absurd here ((idle d).2.2.1 cg)
      · cases moved
  | remove d =>
      simp only [step,Pool.remove] at moved
      split at moved
      · rename_i cg here
        exact absurd here ((idle d).2.2.2 cg)
      · cases moved
  | _ => cases mine

theorem credit_parts (moved : Pool.credit s c = some t) : ∃ cg box, (s.container c).stage = .crediting cg ∧
    box = {s.container c with stage := .released,credit := some (s.limit cg)} ∧
      t = {s with container := Function.update s.container c box} := by
  unfold Pool.credit at moved
  split at moved
  · rename_i cg here
    cases moved
    exact ⟨cg,_,here,rfl,rfl⟩
  · cases moved

theorem credit_quiet (quiet : Pool.Quiet s) (moved : s.credit c = some t) : t.Quiet := by
  obtain ⟨cg,box,_,settled,rfl⟩ := credit_parts moved
  intro d
  by_cases same : d = c
  · subst d
    simp [settled,Stage.holding]
  · simpa [same] using quiet d

def Task.done : Task → Option Nat
  | .stopping _ done | .emptying done | .dropping _ done | .emptied done => some done
  | _ => none

def Action.turns : Action → Bool
  | .fetch | .offer | .stop | .emptyReady | .emptyRecycled | .drop => true
  | _ => false

theorem turn_parts (turns : action.turns = true) (moved : step conf s action = some t) :
    s.task ≠ .ended ∧ t.task.done = s.task.done ∧ (∀ d, t.task ≠ .emptied d) ∧ t.closer = s.closer := by
  cases action with
  | fetch | offer | stop | emptyReady | emptyRecycled | drop =>
      simp only [step,Pool.fetch,Pool.offer,Pool.stop,Pool.emptyReady,Pool.emptyRecycled,Pool.drop,Pool.destroyCg] at moved
      split at moved <;> try split at moved
      all_goals cases moved
      all_goals simp_all [Task.done]
  | _ => cases turns

theorem quit_parts (moved : Pool.quit s d = some t) : ∃ cg, s.task = .offering cg ∧ s.closer d = .signalling ∧
    t = {s with task := .stopping cg d,closer := Function.update s.closer d .waiting} := by
  unfold Pool.quit at moved
  split at moved
  · rename_i cg here calls
    cases moved
    exact ⟨cg,here,calls,rfl⟩
  · cases moved

theorem breakEmpty_parts (moved : Pool.breakEmpty s = some t) : ∃ done, s.task = .emptying done ∧
    (s.ready = [] ∧ s.recycled = []) ∧ t = {s with task := .emptied done} := by
  unfold Pool.breakEmpty at moved
  split at moved
  · rename_i done here
    split at moved
    · rename_i empty
      cases moved
      exact ⟨done,here,empty,rfl⟩
    · cases moved
  · cases moved

theorem finish_parts (moved : Pool.finish s = some t) : ∃ done, s.task = .emptied done ∧
    t = {s with task := .ended,closer := Function.update s.closer done .returned} := by
  unfold Pool.finish at moved
  split at moved
  · rename_i done here
    cases moved
    exact ⟨done,here,rfl⟩
  · cases moved

theorem destroy_parts (moved : Pool.destroy s d = some t) : s.closer d = .unborn ∧
    t = {s with closer := Function.update s.closer d .signalling} := by
  unfold Pool.destroy at moved
  split at moved
  · rename_i new
    cases moved
    exact ⟨new,rfl⟩
  · cases moved

def Pool.Served (s : Pool) : Prop := ∀ d, s.task.done = some d → s.closer d = .waiting

theorem step_served (served : Pool.Served s) (moved : step conf s action = some t) : t.Served := by
  intro d serves
  cases action with
  | fetch | offer | stop | emptyReady | emptyRecycled | drop =>
      obtain ⟨_,done,_,closer⟩ := turn_parts rfl moved
      rw [closer]
      exact served d (done.symm.trans serves)
  | getCg | receive | getReturns | pause | unpause | killAndRelease | remove | credit =>
      obtain ⟨task,closer⟩ := container_step rfl moved
      rw [closer]
      exact served d (task ▸ serves)
  | quit e =>
      obtain ⟨cg,_,_,rfl⟩ := quit_parts moved
      cases serves
      exact Function.update_self _ _ _
  | breakEmpty =>
      obtain ⟨done,here,_,rfl⟩ := breakEmpty_parts moved
      exact served d (by rw [here]; exact serves)
  | finish =>
      obtain ⟨done,_,rfl⟩ := finish_parts moved
      cases serves
  | destroy e =>
      obtain ⟨new,rfl⟩ := destroy_parts moved
      have waits := served d serves
      refine (Function.update_of_ne ?_ _ _).trans waits
      rintro rfl
      cases new.symm.trans waits

theorem reached_served (ran : run (step conf) newCgroupPool actions = some s) : s.Served := by
  refine run_preserves Pool.Served (fun _ _ _ served moved => step_served served moved) ?_ ran
  intro d serves
  cases serves

-- cgTask has emptied the channels for the call `d` of Destroy, which has returned
-- or is about to.
structure Pool.Drained (s : Pool) (d : Nat) : Prop where
  empty : s.task = .emptied d ∨ s.closer d = .returned → s.ready = [] ∧ s.recycled = []
  ended : s.closer d = .returned → s.task = .ended

theorem step_drained (drained : Pool.Drained s d) (quiet : s.Quiet) (calm : action.isGetCg = false)
    (moved : step conf s action = some t) : t.Drained d := by
  cases action with
  | fetch | offer | stop | emptyReady | emptyRecycled | drop =>
      obtain ⟨busy,_,unfinished,closer⟩ := turn_parts rfl moved
      have standing : t.closer d ≠ .returned := by
        rw [closer]
        exact fun returned => busy (drained.ended returned)
      exact ⟨fun either => either.elim (absurd · (unfinished d)) (absurd · standing),(absurd · standing)⟩
  | getCg | receive | getReturns | pause | unpause | killAndRelease | remove | credit =>
      obtain ⟨cg,box,_,_,rfl⟩ := credit_parts (quiet_credits quiet rfl calm moved)
      exact ⟨drained.empty,drained.ended⟩
  | quit e =>
      obtain ⟨cg,here,_,rfl⟩ := quit_parts moved
      have unfinished : Function.update s.closer e .waiting d ≠ .returned := by
        rw [Function.update_apply]
        split
        · exact Closer.noConfusion
        · intro returned
          cases here.symm.trans (drained.ended returned)
      exact ⟨fun either => either.elim Task.noConfusion (absurd · unfinished),(absurd · unfinished)⟩
  | breakEmpty =>
      obtain ⟨done,here,empty,rfl⟩ := breakEmpty_parts moved
      refine ⟨fun _ => empty,?_⟩
      intro returned
      cases here.symm.trans (drained.ended returned)
  | finish =>
      obtain ⟨done,here,rfl⟩ := finish_parts moved
      refine ⟨?_,fun _ => rfl⟩
      rintro (wrong | returned)
      · cases wrong
      · dsimp only at returned
        rw [Function.update_apply] at returned
        split at returned
        · rename_i same
          subst d
          exact drained.empty (.inl here)
        · exact drained.empty (.inr returned)
  | destroy e =>
      obtain ⟨_,rfl⟩ := destroy_parts moved
      have before : Function.update s.closer e .signalling d = .returned → s.closer d = .returned := by
        intro returned
        rw [Function.update_apply] at returned
        split at returned
        · cases returned
        · exact returned
      exact ⟨fun either => drained.empty (either.imp id before),fun returned => drained.ended (before returned)⟩

theorem step_quiet (quiet : Pool.Quiet s) (calm : action.isGetCg = false) (moved : step conf s action = some t) : t.Quiet := by
  cases who : action.container with
  | none =>
      unfold Pool.Quiet
      rw [(task_step who moved).1]
      exact quiet
  | some c => exact credit_quiet quiet (quiet_credits quiet who calm moved)

theorem run_drained (quiet : Pool.Quiet s) (drained : s.Drained d) (calm : ∀ action ∈ actions, action.isGetCg = false)
    (ran : run (step conf) s actions = some t) : t.Quiet ∧ t.Drained d := by
  have meets : Meets (step conf) (fun _ action => action.isGetCg = false) s actions :=
    meets_of_forall (fun action member _ => calm action member) s
  refine run_preserves_guarded (fun s => s.Quiet ∧ s.Drained d) ?_ ⟨quiet,drained⟩ meets ran
  rintro s action t ⟨quiet,drained⟩ calm moved
  exact ⟨step_quiet quiet calm moved,step_drained drained quiet calm moved⟩

theorem destroy_drained (served : Pool.Served s) (moved : s.destroy d = some t) : t.Drained d := by
  obtain ⟨new,rfl⟩ := destroy_parts moved
  have calls : Function.update s.closer d .signalling d ≠ .returned := by
    rw [Function.update_self]
    exact Closer.noConfusion
  refine ⟨?_,(absurd · calls)⟩
  rintro (emptied | returned)
  · have waits := served d (by rw [emptied]; rfl)
    cases new.symm.trans waits
  · exact absurd returned calls

theorem drained_removed (owned : Pool.Owned s) (quiet : s.Quiet) (drained : s.Drained d) (returned : s.closer d = .returned)
    (created : s.Created cg) : s.removed.count cg = 1 := by
  obtain ⟨ready,recycled⟩ := drained.empty (.inr returned)
  refine List.count_eq_one_of_mem (stock_nodup owned).2.2.1 ?_
  obtain ⟨place,here⟩ := some_place owned created
  cases place with
  | ready =>
      rw [Pool.At,ready] at here
      exact absurd here List.not_mem_nil
  | recycled =>
      rw [Pool.At,recycled] at here
      exact absurd here List.not_mem_nil
  | removed => exact here
  | hand i =>
      cases i with
      | none =>
          simp only [Pool.At,Pool.hand,drained.ended returned] at here
          cases here
      | some c => cases (quiet c).1.symm.trans here

-- Every cgroup that was created is in one place, once; GetCg returns none that
-- another container has; and if Destroy is called when the containers are quiet
-- and GetCg is not called until it returns, everything was removed once.
theorem cgroups_owned_once (ran : run (step conf) newCgroupPool actions = some s) :
    (∀ cg, s.Created cg → ∃! place, s.At cg place) ∧ s.ready.Nodup ∧ s.recycled.Nodup ∧ s.removed.Nodup ∧
      (∀ c cg t, step conf s (.getReturns c) = some t → (t.container c).stage = .running cg →
        ∀ d, d ≠ c → (t.container d).stage.holding ≠ some cg) ∧
      ∀ d t more u, s.Quiet → step conf s (.destroy d) = some t → (∀ action ∈ more, action.isGetCg = false) →
        run (step conf) t more = some u → u.closer d = .returned → ∀ cg, u.Created cg → u.removed.count cg = 1 := by
  have owned := reached_owned ran
  obtain ⟨ready,recycled,removed,_,_⟩ := stock_nodup owned
  refine ⟨?_,ready,recycled,removed,?_,?_⟩
  · intro cg created
    obtain ⟨place,here⟩ := some_place owned created
    exact ⟨place,here,fun other there => one_place owned there here⟩
  · intro c cg t moved running d other holds
    have later : t.Owned := carry_accounted owned (step_carried moved)
    have mine : t.hand (some c) = some cg := by
      dsimp only [Pool.hand]
      rw [running]
      rfl
    exact other (Option.some.inj (later.custody.apart (some d) (some c) cg holds mine))
  · intro d t more u quiet called calm after returned cg created
    have through : run (step conf) s (.destroy d :: more) = some u := by simpa [run,called] using after
    have drained := destroy_drained (reached_served ran) called
    obtain ⟨quiet,drained⟩ := run_drained (step_quiet quiet rfl called) drained calm after
    exact drained_removed (reached_owned (run_trans ran through)) quiet drained returned created

def reusing : Conf := ⟨true,true,50⟩

def oneContainer : List Action :=
  [.fetch,.offer,.getCg 0 50,.receive 0,.getReturns 0,.killAndRelease 0,.fetch,.offer,.credit 0,.fetch]

def closing : List Action := [.quit 0,.stop,.emptyReady,.drop,.breakEmpty,.finish]

theorem oneContainer_quiet (ran : run (step reusing) newCgroupPool oneContainer = some s) : s.Quiet := by
  obtain rfl := Option.some.inj ran
  intro c
  cases c with
  | zero => exact ⟨rfl,Stage.noConfusion⟩
  | succ c => exact ⟨rfl,Stage.noConfusion⟩

theorem cgroups_owned_once_closed : ∃ s t u, run (step reusing) newCgroupPool oneContainer = some s ∧
    step reusing s (.destroy 0) = some t ∧ run (step reusing) t closing = some u ∧ u.nextID = 2 ∧
      (∃! place, s.At 1 place) ∧ u.removed.count 1 = 1 ∧ u.removed.count 2 = 1 := by
  have seen : (run (step reusing) newCgroupPool oneContainer).any (fun s => decide (s.nextID = 2 ∧
      (run (step reusing) s [.destroy 0]).any (fun t => decide ((run (step reusing) t closing).any (fun u =>
        decide (u.nextID = 2 ∧ u.closer 0 = .returned)) = true)) = true)) = true := by decide +kernel
  obtain ⟨s,ran,two,next⟩ := run_seen seen
  obtain ⟨t,called,last⟩ := run_seen next
  obtain ⟨u,after,both,returned⟩ := run_seen last
  obtain ⟨_,moved,stays⟩ := run_cons_parts called
  cases stays
  obtain ⟨places,_,_,_,_,ends⟩ := cgroups_owned_once ran
  have gone := ends 0 t closing u (oneContainer_quiet ran) moved (by decide) after returned
  exact ⟨s,t,u,ran,moved,after,both,places 1 ⟨by omega,by omega⟩,gone 1 ⟨by omega,by omega⟩,gone 2 ⟨by omega,by omega⟩⟩

-- A container asks for a cgroup after Destroy was called and before cgTask sees
-- the request.
def lateContainer : List Action := [.getCg 0 50,.receive 0,.getReturns 0,.quit 0,.stop,.breakEmpty,.finish]

theorem fetched_quiet (ran : run (step reusing) newCgroupPool [.fetch,.offer,.fetch] = some s) : s.Quiet := by
  obtain rfl := Option.some.inj ran
  intro c
  exact ⟨rfl,Stage.noConfusion⟩

theorem cgroup_outlives_destroy : ∃ s t u, run (step reusing) newCgroupPool [.fetch,.offer,.fetch] = some s ∧ s.Quiet ∧
    step reusing s (.destroy 0) = some t ∧ run (step reusing) t lateContainer = some u ∧ u.closer 0 = .returned ∧
      u.Created 1 ∧ 1 ∉ u.removed ∧ (u.container 0).stage = .running 1 := by
  have seen : (run (step reusing) newCgroupPool [.fetch,.offer,.fetch]).any (fun s => decide (
      (run (step reusing) s [.destroy 0]).any (fun t => decide ((run (step reusing) t lateContainer).any (fun u =>
        decide (u.closer 0 = .returned ∧ u.nextID = 2 ∧ 1 ∉ u.removed ∧ (u.container 0).stage = .running 1)) = true)) =
          true)) = true := by decide +kernel
  obtain ⟨s,ran,next⟩ := run_seen seen
  obtain ⟨t,called,last⟩ := run_seen next
  obtain ⟨u,after,returned,two,kept,running⟩ := run_seen last
  obtain ⟨_,moved,stays⟩ := run_cons_parts called
  cases stays
  exact ⟨s,t,u,ran,fetched_quiet ran,moved,after,returned,⟨by omega,by omega⟩,kept,running⟩

end OpenLambda.Cgroups
