import OpenLambda.Sandbox.CgroupOwners

namespace OpenLambda.Cgroups
open Foundation.Hands Foundation.Runs

-- The cgroup whose limit the credit of a container is or will be read from.
def Stage.priced : Stage → Option Nat
  | .running cg | .removing cg | .crediting cg => some cg
  | _ => none

structure Container.Priced (box : Container) (limit : Nat → Int) : Prop where
  own : ∀ cg, box.stage.priced = some cg → limit cg = box.limit
  paid : ∀ mb, box.credit = some mb → box.stage = .released ∧ mb = box.limit

def Pool.Priced (s : Pool) : Prop := ∀ c, (s.container c).Priced s.limit

theorem put_priced {s t : Pool} (priced : s.Priced) (box : Container) (same : t.limit = s.limit)
    (put : t.container = Function.update s.container c box) (fine : box.Priced s.limit) : t.Priced := by
  intro d
  rw [put,same,Function.update_apply]
  split
  · exact fine
  · exact priced d

theorem unpaid (priced : Container.Priced box limit) (stage : box.stage ≠ .released) : box.credit = none := by
  cases paid : box.credit with
  | none => rfl
  | some mb => exact absurd (priced.paid mb paid).1 stage

theorem goto_priced (priced : Pool.Priced s) (here : (s.container c).stage = stage) (unreleased : stage ≠ .released)
    (next : Stage) (cheaper : ∀ cg, next.priced = some cg → stage.priced = some cg) : (s.goto c next).Priced := by
  refine put_priced priced {s.container c with stage := next} rfl rfl ⟨?_,?_⟩
  · intro cg mine
    exact (priced c).own cg (by rw [here]; exact cheaper cg mine)
  · intro mb credited
    cases (unpaid (priced c) (by rw [here]; exact unreleased)).symm.trans credited

theorem setMemLimitMB_priced (priced : Pool.Priced s) (owned : s.Owned) (holds : (s.container c).stage.holding = some cg)
    (calm : ∀ d, (s.container d).stage = .crediting cg → mb = s.limit cg) : (s.setMemLimitMB c cg mb).Priced := by
  have unreleased : (s.container c).stage ≠ .released := by
    intro released
    rw [released] at holds
    cases holds
  intro d
  by_cases same : d = c
  · subst d
    dsimp only [Pool.setMemLimitMB]
    rw [Function.update_self]
    refine ⟨?_,?_⟩
    · intro other mine
      cases mine
      exact Function.update_self _ _ _
    · intro paid credited
      cases (unpaid (priced c) unreleased).symm.trans credited
  · dsimp only [Pool.setMemLimitMB]
    rw [Function.update_of_ne same]
    refine ⟨?_,(priced d).paid⟩
    intro other theirs
    rw [Function.update_apply]
    split
    · rename_i equal
      subst other
      have apart : (s.container d).stage.holding ≠ some cg := by
        intro both
        exact same (Option.some.inj (owned.custody.apart (some d) (some c) cg both holds))
      have credits : (s.container d).stage = .crediting cg := by
        cases stage : (s.container d).stage <;> rw [stage] at theirs apart <;> cases theirs
        · exact absurd rfl apart
        · exact absurd rfl apart
        · rfl
      rw [calm d credits]
      exact (priced d).own cg theirs
    · exact (priced d).own other theirs

def Sets (conf : Conf) (s : Pool) : Action → Option (Nat × Int)
  | .getReturns c => match (s.container c).stage with
      | .taken cg => some (cg,(s.container c).memLimitMB)
      | _ => none
  | .pause c memUsageMB => match (s.container c).stage with
      | .running cg =>
          if conf.downsizePausedMem = true ∧ memUsageMB + 1 < s.limit cg then some (cg,memUsageMB + 1) else none
      | _ => none
  | .unpause c => match (s.container c).stage with
      | .running cg => if conf.downsizePausedMem then some (cg,conf.memMb) else none
      | _ => none
  | _ => none

-- No limit is changed that a released container has still to read.
def Unread (conf : Conf) (s : Pool) (action : Action) : Prop :=
  ∀ cg mb, Sets conf s action = some (cg,mb) → ∀ d, (s.container d).stage = .crediting cg → mb = s.limit cg

theorem step_priced (priced : Pool.Priced s) (owned : s.Owned) (unread : Unread conf s action)
    (moved : step conf s action = some t) : t.Priced := by
  cases action with
  | fetch | offer | quit | stop | emptyReady | emptyRecycled | drop | breakEmpty | finish | destroy =>
      obtain ⟨container,limit⟩ := task_step rfl moved
      unfold Pool.Priced
      rw [container,limit]
      exact priced
  | getCg c memLimitMB =>
      simp only [step,Pool.getCg] at moved
      split at moved
      · cases moved
        refine put_priced priced ⟨.asking,memLimitMB,0,none⟩ rfl rfl ⟨?_,?_⟩
        · intro cg mine
          cases mine
        · intro mb credited
          cases credited
      · cases moved
  | receive c =>
      simp only [step,Pool.receive] at moved
      split at moved
      · rename_i cg rest here _
        cases moved
        exact goto_priced (s := {s with ready := rest}) priced here Stage.noConfusion _ (fun _ mine => by cases mine)
      · cases moved
  | getReturns c =>
      simp only [step,Pool.getReturns] at moved
      split at moved
      · rename_i cg here
        cases moved
        exact setMemLimitMB_priced priced owned (by rw [here]; rfl) (unread cg _ (by simp [Sets,here]))
      · cases moved
  | pause c memUsageMB =>
      simp only [step,Pool.pause] at moved
      split at moved
      · rename_i cg here
        split at moved
        · rename_i lower
          cases moved
          exact setMemLimitMB_priced priced owned (by rw [here]; rfl) (unread cg _ (by simp [Sets,here,lower]))
        · cases moved
          exact priced
      · cases moved
  | unpause c =>
      simp only [step,Pool.unpause] at moved
      split at moved
      · rename_i cg here
        split at moved
        · rename_i raised
          cases moved
          exact setMemLimitMB_priced priced owned (by rw [here]; rfl) (unread cg _ (by simp [Sets,here,raised]))
        · cases moved
          exact priced
      · cases moved
  | killAndRelease c =>
      simp only [step,Pool.killAndRelease] at moved
      split at moved
      · rename_i cg here
        split at moved
        · cases moved
          exact goto_priced (s := {s with recycled := s.recycled ++ [cg]}) priced here Stage.noConfusion _ (fun _ => id)
        · cases moved
          exact goto_priced priced here Stage.noConfusion _ (fun _ => id)
      · cases moved
  | remove c =>
      simp only [step,Pool.remove] at moved
      split at moved
      · rename_i cg here
        cases moved
        exact goto_priced (s := s.destroyCg cg) priced here Stage.noConfusion _ (fun _ => id)
      · cases moved
  | credit c =>
      obtain ⟨cg,box,here,rfl,rfl⟩ := credit_parts moved
      refine put_priced priced _ rfl rfl ⟨?_,?_⟩
      · intro other mine
        cases mine
      · intro mb credited
        cases credited
        exact ⟨rfl,(priced c).own cg (by rw [here]; rfl)⟩

theorem newCgroupPool_priced : newCgroupPool.Priced := by
  intro c
  refine ⟨?_,?_⟩
  · intro cg mine
    cases mine
  · intro mb credited
    cases credited

theorem reached_priced (meets : Meets (step conf) (Unread conf) newCgroupPool actions)
    (ran : run (step conf) newCgroupPool actions = some s) : s.Priced := by
  have both := run_preserves_guarded (fun s => s.Priced ∧ s.Owned) ?_ ⟨newCgroupPool_priced,newCgroupPool_owned⟩ meets ran
  · exact both.1
  · rintro s action t ⟨priced,owned⟩ unread moved
    exact ⟨step_priced priced owned unread moved,carry_accounted owned (step_carried moved)⟩

theorem credit_is_own_limit (meets : Meets (step conf) (Unread conf) newCgroupPool actions)
    (ran : run (step conf) newCgroupPool actions = some s) (c : Nat) :
    (∀ cg, (s.container c).stage.priced = some cg → s.limit cg = (s.container c).limit) ∧
      ∀ mb, (s.container c).credit = some mb → mb = (s.container c).limit := by
  have priced := reached_priced meets ran c
  exact ⟨priced.own,fun mb credited => (priced.paid mb credited).2⟩

def inTurn : List Action :=
  [.fetch,.offer,.getCg 0 50,.receive 0,.getReturns 0,.killAndRelease 0,.fetch,.offer,.credit 0,.getCg 1 256,.receive 1,
    .getReturns 1]

theorem meets_unread (moved : step conf s action = some t) (unread : Unread conf s action)
    (rest : Meets (step conf) (Unread conf) t later) : Meets (step conf) (Unread conf) s (action :: later) := by
  refine ⟨unread,?_⟩
  intro u same
  cases moved.symm.trans same
  exact rest

theorem unread_of_none (none : Sets conf s action = none) : Unread conf s action := by
  intro cg mb sets
  cases none.symm.trans sets

theorem inTurn_unread : Meets (step reusing) (Unread reusing) newCgroupPool inTurn := by
  iterate 4 refine meets_unread rfl (unread_of_none rfl) ?_
  refine meets_unread rfl ?_ ?_
  · intro cg mb sets d credits
    cases d with
    | zero => cases credits
    | succ d => cases credits
  iterate 6 refine meets_unread rfl (unread_of_none rfl) ?_
  refine meets_unread rfl ?_ trivial
  intro cg mb sets d credits
  cases d with
  | zero => cases credits
  | succ d =>
      cases d with
      | zero => cases credits
      | succ d => cases credits

theorem credit_is_own_limit_inTurn : ∃ s, run (step reusing) newCgroupPool inTurn = some s ∧
    (s.container 0).credit = some 50 ∧ (s.container 0).limit = 50 ∧ (s.container 1).stage = .running 1 ∧
      s.limit 1 = 256 ∧ (s.container 1).limit = 256 := by
  have seen : (run (step reusing) newCgroupPool inTurn).any (fun s => decide ((s.container 0).credit = some 50 ∧
      (s.container 1).stage = .running 1 ∧ (s.container 1).limit = 256)) = true := by decide +kernel
  obtain ⟨s,ran,credited,running,large⟩ := run_seen seen
  have first := credit_is_own_limit inTurn_unread ran 0
  have second := credit_is_own_limit inTurn_unread ran 1
  exact ⟨s,ran,credited,(first.2 50 credited).symm,running,(second.1 1 (by rw [running]; rfl)).trans large,large⟩

-- The larger sandbox gets the cgroup between KillAndRelease and the credit.
def overtaken : List Action :=
  [.fetch,.offer,.getCg 0 50,.receive 0,.getReturns 0,.killAndRelease 0,.fetch,.offer,.getCg 1 256,.receive 1,
    .getReturns 1,.credit 0]

theorem credit_of_other_limit : ∃ s, run (step reusing) newCgroupPool overtaken = some s ∧
    (s.container 0).limit = 50 ∧ (s.container 0).credit = some 256 := by
  have seen : (run (step reusing) newCgroupPool overtaken).any (fun s => decide ((s.container 0).limit = 50 ∧
      (s.container 0).credit = some 256)) = true := by decide +kernel
  exact run_seen seen

end OpenLambda.Cgroups
