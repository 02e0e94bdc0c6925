import OpenLambda.Foundation.Hands
import OpenLambda.Foundation.Runs

namespace OpenLambda.Cgroups
open Foundation.Hands Foundation.Runs

def cgroupReserve : Nat := 16

structure Conf where
  reuseCgroups : Bool
  downsizePausedMem : Bool
  memMb : Int

-- Where cgTask is: at its first select, at the second with a cgroup, at the
-- Destroy of the cgroup it had at the quit request, in the loop Empty, at the
-- Destroy of a cgroup taken there, and before and after it sends on `done`, the
-- channel of a call of Destroy.
inductive Task where
  | fetching
  | offering (cg : Nat)
  | stopping (cg done : Nat)
  | emptying (done : Nat)
  | dropping (cg done : Nat)
  | emptied (done : Nat)
  | ended
  deriving DecidableEq, Repr

def Task.holding : Task → Option Nat
  | .offering cg | .stopping cg _ | .dropping cg _ => some cg
  | _ => none

-- Where a container is with its cgroup: in GetCg before and after the receive,
-- in use, in KillAndRelease at the Destroy of a cgroup that was not recycled, at
-- the credit that follows KillAndRelease, and released.
inductive Stage where
  | unborn
  | asking
  | taken (cg : Nat)
  | running (cg : Nat)
  | removing (cg : Nat)
  | crediting (cg : Nat)
  | released
  deriving DecidableEq, Repr

def Stage.holding : Stage → Option Nat
  | .taken cg | .running cg | .removing cg => some cg
  | _ => none

-- `memLimitMB` is the argument of GetCg. The other fields are history: the limit
-- the container has set last, and what adjustAvailableMB was called with when it
-- was released.
structure Container where
  stage : Stage
  memLimitMB : Int
  limit : Int
  credit : Option Int
  deriving DecidableEq, Repr

inductive Closer where
  | unborn
  | signalling
  | waiting
  | returned
  deriving DecidableEq, Repr

-- `limit` is memLimitMB of each cgroup; `removed` are the Rmdirs that were made.
structure Pool where
  ready : List Nat
  recycled : List Nat
  nextID : Nat
  task : Task
  limit : Nat → Int
  container : Nat → Container
  closer : Nat → Closer
  removed : List Nat

def newCgroupPool : Pool where
  ready := []
  recycled := []
  nextID := 0
  task := .fetching
  limit := fun _ => 0
  container := fun _ => ⟨.unborn,0,0,none⟩
  closer := fun _ => .unborn
  removed := []

def Pool.goto (s : Pool) (c : Nat) (stage : Stage) : Pool :=
  {s with container := Function.update s.container c {s.container c with stage := stage}}

def Pool.setMemLimitMB (s : Pool) (c cg : Nat) (mb : Int) : Pool :=
  {s with
    limit := Function.update s.limit cg mb
    container := Function.update s.container c {s.container c with stage := .running cg,limit := mb}}

def Pool.destroyCg (s : Pool) (cg : Nat) : Pool := {s with removed := s.removed ++ [cg]}

def Pool.fetch (s : Pool) : Option Pool :=
  match s.task with
  | .fetching => match s.recycled with
      | cg :: rest => some {s with recycled := rest,task := .offering cg}
      | [] => some {s with nextID := s.nextID + 1,task := .offering (s.nextID + 1)}
  | _ => none

def Pool.offer (s : Pool) : Option Pool :=
  match s.task with
  | .offering cg =>
      if s.ready.length < cgroupReserve then some {s with ready := s.ready ++ [cg],task := .fetching} else none
  | _ => none

def Pool.quit (s : Pool) (d : Nat) : Option Pool :=
  match s.task,s.closer d with
  | .offering cg,.signalling => some {s with task := .stopping cg d,closer := Function.update s.closer d .waiting}
  | _,_ => none

def Pool.stop (s : Pool) : Option Pool :=
  match s.task with
  | .stopping cg done => some {s.destroyCg cg with task := .emptying done}
  | _ => none

def Pool.emptyReady (s : Pool) : Option Pool :=
  match s.task,s.ready with
  | .emptying done,cg :: rest => some {s with ready := rest,task := .dropping cg done}
  | _,_ => none

def Pool.emptyRecycled (s : Pool) : Option Pool :=
  match s.task,s.recycled with
  | .emptying done,cg :: rest => some {s with recycled := rest,task := .dropping cg done}
  | _,_ => none

def Pool.drop (s : Pool) : Option Pool :=
  match s.task with
  | .dropping cg done => some {s.destroyCg cg with task := .emptying done}
  | _ => none

def Pool.breakEmpty (s : Pool) : Option Pool :=
  match s.task with
  | .emptying done => if s.ready = [] ∧ s.recycled = [] then some {s with task := .emptied done} else none
  | _ => none

def Pool.finish (s : Pool) : Option Pool :=
  match s.task with
  | .emptied done => some {s with task := .ended,closer := Function.update s.closer done .returned}
  | _ => none

def Pool.destroy (s : Pool) (d : Nat) : Option Pool :=
  match s.closer d with
  | .unborn => some {s with closer := Function.update s.closer d .signalling}
  | _ => none

def Pool.getCg (s : Pool) (c : Nat) (memLimitMB : Int) : Option Pool :=
  match (s.container c).stage with
  | .unborn => some {s with container := Function.update s.container c ⟨.asking,memLimitMB,0,none⟩}
  | _ => none

def Pool.receive (s : Pool) (c : Nat) : Option Pool :=
  match (s.container c).stage,s.ready with
  | .asking,cg :: rest => some ({s with ready := rest}.goto c (.taken cg))
  | _,_ => none

def Pool.getReturns (s : Pool) (c : Nat) : Option Pool :=
  match (s.container c).stage with
  | .taken cg => some (s.setMemLimitMB c cg (s.container c).memLimitMB)
  | _ => none

def Pool.pause (conf : Conf) (s : Pool) (c : Nat) (memUsageMB : Int) : Option Pool :=
  match (s.container c).stage with
  | .running cg =>
      if conf.downsizePausedMem = true ∧ memUsageMB + 1 < s.limit cg then some (s.setMemLimitMB c cg (memUsageMB + 1))
      else some s
  | _ => none

def Pool.unpause (conf : Conf) (s : Pool) (c : Nat) : Option Pool :=
  match (s.container c).stage with
  | .running cg => if conf.downsizePausedMem then some (s.setMemLimitMB c cg conf.memMb) else some s
  | _ => none

-- The last decCgRefCount: KillAndRelease recycles without waiting, or removes.
def Pool.killAndRelease (conf : Conf) (s : Pool) (c : Nat) : Option Pool :=
  match (s.container c).stage with
  | .running cg =>
      if conf.reuseCgroups = true ∧ s.recycled.length < cgroupReserve then
        some ({s with recycled := s.recycled ++ [cg]}.goto c (.crediting cg))
      else some (s.goto c (.removing cg))
  | _ => none

def Pool.remove (s : Pool) (c : Nat) : Option Pool :=
  match (s.container c).stage with
  | .removing cg => some ((s.destroyCg cg).goto c (.crediting cg))
  | _ => none

def Pool.credit (s : Pool) (c : Nat) : Option Pool :=
  match (s.container c).stage with
  | .crediting cg =>
      some {s with
        container := Function.update s.container c
          {s.container c with stage := .released,credit := some (s.limit cg)}}
  | _ => none

inductive Action where
  | fetch
  | offer
  | quit (d : Nat)
  | stop
  | emptyReady
  | emptyRecycled
  | drop
  | breakEmpty
  | finish
  | destroy (d : Nat)
  | getCg (c : Nat) (memLimitMB : Int)
  | receive (c : Nat)
  | getReturns (c : Nat)
  | pause (c : Nat) (memUsageMB : Int)
  | unpause (c : Nat)
  | killAndRelease (c : Nat)
  | remove (c : Nat)
  | credit (c : Nat)
  deriving DecidableEq, Repr

def step (conf : Conf) (s : Pool) : Action → Option Pool
  | .fetch => s.fetch
  | .offer => s.offer
  | .quit d => s.quit d
  | .stop => s.stop
  | .emptyReady => s.emptyReady
  | .emptyRecycled => s.emptyRecycled
  | .drop => s.drop
  | .breakEmpty => s.breakEmpty
  | .finish => s.finish
  | .destroy d => s.destroy d
  | .getCg c memLimitMB => s.getCg c memLimitMB
  | .receive c => s.receive c
  | .getReturns c => s.getReturns c
  | .pause c memUsageMB => s.pause conf c memUsageMB
  | .unpause c => s.unpause conf c
  | .killAndRelease c => s.killAndRelease conf c
  | .remove c => s.remove c
  | .credit c => s.credit c

def Pool.hand (s : Pool) : Option Nat → Option Nat
  | none => s.task.holding
  | some c => (s.container c).stage.holding

def Pool.stock (s : Pool) : List Nat := s.ready ++ (s.recycled ++ s.removed)

def Pool.Created (s : Pool) (cg : Nat) : Prop := 0 < cg ∧ cg ≤ s.nextID

theorem hand_task (s : Pool) (task : Task) :
    Pool.hand {s with task := task} = Function.update s.hand none task.holding := by
  funext i
  cases i with
  | none => rw [Function.update_self]; rfl
  | some c => rw [Function.update_of_ne (Option.some_ne_none c)]; rfl

theorem hand_container (s : Pool) (c : Nat) (box : Container) :
    Pool.hand {s with container := Function.update s.container c box} =
      Function.update s.hand (some c) box.stage.holding := by
  funext i
  cases i with
  | none => rw [Function.update_of_ne (Option.some_ne_none c).symm]; rfl
  | some d =>
      by_cases same : d = c
      · subst d
        rw [Function.update_self]
        simp [Pool.hand]
      · rw [Function.update_of_ne (by simpa using same)]
        simp [Pool.hand,same]

def Pool.Carried (s t : Pool) : Prop := Carry s.hand s.stock s.Created t.hand t.stock t.Created

theorem still_carried {s t : Pool} (hand : t.hand = s.hand) (stock : s.stock.Perm t.stock) (next : t.nextID = s.nextID) :
    s.Carried t := by
  unfold Pool.Carried
  rw [hand,show t.Created = s.Created by unfold Pool.Created; rw [next]]
  exact .keep stock

theorem take_carried {s t : Pool} (i : Option Nat) (cg : Nat) (empty : s.hand i = none)
    (hand : t.hand = Function.update s.hand i (some cg)) (perm : s.stock.Perm (cg :: t.stock)) (next : t.nextID = s.nextID) :
    s.Carried t := by
  unfold Pool.Carried
  rw [hand,show t.Created = s.Created by unfold Pool.Created; rw [next]]
  exact .take i empty perm

theorem give_carried {s t : Pool} (i : Option Nat) (cg : Nat) (holds : s.hand i = some cg)
    (hand : t.hand = Function.update s.hand i none) (perm : t.stock.Perm (cg :: s.stock)) (next : t.nextID = s.nextID) :
    s.Carried t := by
  unfold Pool.Carried
  rw [hand,show t.Created = s.Created by unfold Pool.Created; rw [next]]
  exact .give i holds perm

theorem goto_hand (s : Pool) (c : Nat) (box : Container) (same : box.stage.holding = (s.container c).stage.holding) :
    Pool.hand {s with container := Function.update s.container c box} = s.hand := by
  rw [hand_container,same]
  exact Function.update_eq_self (some c) s.hand

theorem task_hand (s : Pool) (task : Task) (same : task.holding = s.task.holding) :
    Pool.hand {s with task := task} = s.hand := by
  rw [hand_task,same]
  exact Function.update_eq_self none s.hand

theorem fetch_carried (moved : Pool.fetch s = some t) : s.Carried t := by
  unfold Pool.fetch at moved
  split at moved
  · rename_i here
    have empty : s.hand none = none := by simp only [Pool.hand,here]; rfl
    split at moved
    · rename_i cg rest front
      cases moved
      refine take_carried none cg empty (hand_task s (.offering cg)) ?_ rfl
      simp only [Pool.stock,front]
      exact List.perm_middle
    · cases moved
      have hand : Pool.hand {s with nextID := s.nextID + 1,task := .offering (s.nextID + 1)} =
        Function.update s.hand none (some (s.nextID + 1)) := hand_task s (.offering (s.nextID + 1))
      unfold Pool.Carried
      rw [hand]
      refine .fresh none empty (fun old => Nat.not_succ_le_self _ old.2) ?_
      intro x
      unfold Pool.Created
      dsimp only
      omega
  · cases moved

theorem offer_carried (moved : Pool.offer s = some t) : s.Carried t := by
  unfold Pool.offer at moved
  split at moved
  · rename_i cg here
    split at moved
    · cases moved
      refine give_carried none cg (by simp only [Pool.hand,here]; rfl) (hand_task s .fetching) ?_ rfl
      simp only [Pool.stock,List.append_assoc,List.cons_append,List.nil_append]
      exact List.perm_middle
    · cases moved
  · cases moved

theorem quit_carried (moved : Pool.quit s d = some t) : s.Carried t := by
  unfold Pool.quit at moved
  split at moved
  · rename_i cg here _
    cases moved
    exact still_carried (task_hand s (.stopping cg d) (by rw [here]; rfl)) (.refl _) rfl
  · cases moved

theorem destroyCg_stock (s : Pool) (cg : Nat) : (s.destroyCg cg).stock.Perm (cg :: s.stock) := by
  simp only [Pool.stock,Pool.destroyCg,← List.append_assoc]
  exact List.perm_append_singleton cg _

theorem destroyCg_carried (s : Pool) (cg done : Nat) (holds : s.task.holding = some cg) :
    s.Carried {s.destroyCg cg with task := .emptying done} :=
  give_carried none cg holds (hand_task s (.emptying done)) (destroyCg_stock s cg) rfl

theorem stop_carried (moved : Pool.stop s = some t) : s.Carried t := by
  unfold Pool.stop at moved
  split at moved
  · rename_i cg done here
    cases moved
    exact destroyCg_carried s cg done (by rw [here]; rfl)
  · cases moved

theorem drop_carried (moved : Pool.drop s = some t) : s.Carried t := by
  unfold Pool.drop at moved
  split at moved
  · rename_i cg done here
    cases moved
    exact destroyCg_carried s cg done (by rw [here]; rfl)
  · cases moved

theorem emptyReady_carried (moved : Pool.emptyReady s = some t) : s.Carried t := by
  unfold Pool.emptyReady at moved
  split at moved
  · rename_i done cg rest here front
    cases moved
    refine take_carried none cg (by simp only [Pool.hand,here]; rfl) (hand_task s (.dropping cg done)) ?_ rfl
    simp only [Pool.stock,front]
    exact .refl _
  · cases moved

theorem emptyRecycled_carried (moved : Pool.emptyRecycled s = some t) : s.Carried t := by
  unfold Pool.emptyRecycled at moved
  split at moved
  · rename_i done cg rest here front
    cases moved
    refine take_carried none cg (by simp only [Pool.hand,here]; rfl) (hand_task s (.dropping cg done)) ?_ rfl
    simp only [Pool.stock,front]
    exact List.perm_middle
  · cases moved

theorem breakEmpty_carried (moved : Pool.breakEmpty s = some t) : s.Carried t := by
  unfold Pool.breakEmpty at moved
  split at moved
  · rename_i done here
    split at moved
    · cases moved
      exact still_carried (task_hand s (.emptied done) (by rw [here]; rfl)) (.refl _) rfl
    · cases moved
  · cases moved

theorem finish_carried (moved : Pool.finish s = some t) : s.Carried t := by
  unfold Pool.finish at moved
  split at moved
  · rename_i done here
    cases moved
    exact still_carried (task_hand s .ended (by rw [here]; rfl)) (.refl _) rfl
  · cases moved

theorem destroy_carried (moved : Pool.destroy s d = some t) : s.Carried t := by
  unfold Pool.destroy at moved
  split at moved
  · cases moved
    exact still_carried rfl (.refl _) rfl
  · cases moved

theorem getCg_carried (moved : Pool.getCg s c memLimitMB = some t) : s.Carried t := by
  unfold Pool.getCg at moved
  split at moved
  · rename_i here
    cases moved
    exact still_carried (goto_hand s c ⟨.asking,memLimitMB,0,none⟩ (by rw [here]; rfl)) (.refl _) rfl
  · cases moved

theorem receive_carried (moved : Pool.receive s c = some t) : s.Carried t := by
  unfold Pool.receive at moved
  split at moved
  · rename_i cg rest here front
    cases moved
    refine take_carried (some c) cg (by simp only [Pool.hand,here]; rfl)
      (hand_container s c {s.container c with stage := .taken cg}) ?_ rfl
    simp only [Pool.stock,Pool.goto,front]
    exact .refl _
  · cases moved

theorem setMemLimitMB_carried (s : Pool) (c cg : Nat) (mb : Int) (holds : (s.container c).stage.holding = some cg) :
    s.Carried (s.setMemLimitMB c cg mb) :=
  still_carried (goto_hand s c {s.container c with stage := .running cg,limit := mb} holds.symm) (.refl _) rfl

theorem getReturns_carried (moved : Pool.getReturns s c = some t) : s.Carried t := by
  unfold Pool.getReturns at moved
  split at moved
  · rename_i cg here
    cases moved
    exact setMemLimitMB_carried s c cg _ (by rw [here]; rfl)
  · cases moved

theorem pause_carried (moved : Pool.pause conf s c memUsageMB = some t) : s.Carried t := by
  unfold Pool.pause at moved
  split at moved
  · rename_i cg here
    split at moved
    · cases moved
      exact setMemLimitMB_carried s c cg _ (by rw [here]; rfl)
    · cases moved
      exact still_carried rfl (.refl _) rfl
  · cases moved

theorem unpause_carried (moved : Pool.unpause conf s c = some t) : s.Carried t := by
  unfold Pool.unpause at moved
  split at moved
  · rename_i cg here
    split at moved
    · cases moved
      exact setMemLimitMB_carried s c cg _ (by rw [here]; rfl)
    · cases moved
      exact still_carried rfl (.refl _) rfl
  · cases moved

theorem killAndRelease_carried (moved : Pool.killAndRelease conf s c = some t) : s.Carried t := by
  unfold Pool.killAndRelease at moved
  split at moved
  · rename_i cg here
    split at moved
    · cases moved
      refine give_carried (some c) cg (by simp only [Pool.hand,here]; rfl)
        (hand_container s c {s.container c with stage := .crediting cg}) ?_ rfl
      simp only [Pool.stock,Pool.goto,List.append_assoc,List.cons_append,List.nil_append]
      rw [← List.append_assoc,← List.append_assoc s.ready]
      exact List.perm_middle
    · cases moved
      exact still_carried (goto_hand s c {s.container c with stage := .removing cg} (by rw [here]; rfl)) (.refl _) rfl
  · cases moved

theorem remove_carried (moved : Pool.remove s c = some t) : s.Carried t := by
  unfold Pool.remove at moved
  split at moved
  · rename_i cg here
    cases moved
    exact give_carried (some c) cg (by simp only [Pool.hand,here]; rfl)
      (hand_container s c {s.container c with stage := .crediting cg}) (destroyCg_stock s cg) rfl
  · cases moved

theorem credit_carried (moved : Pool.credit s c = some t) : s.Carried t := by
  unfold Pool.credit at moved
  split at moved
  · rename_i cg here
    cases moved
    exact still_carried (goto_hand s c {s.container c with stage := .released,credit := some (s.limit cg)}
      (by rw [here]; rfl)) (.refl _) rfl
  · cases moved

theorem step_carried (moved : step conf s action = some t) : s.Carried t := by
  cases action with
  | fetch => exact fetch_carried moved
  | offer => exact offer_carried moved
  | quit d => exact quit_carried moved
  | stop => exact stop_carried moved
  | emptyReady => exact emptyReady_carried moved
  | emptyRecycled => exact emptyRecycled_carried moved
  | drop => exact drop_carried moved
  | breakEmpty => exact breakEmpty_carried moved
  | finish => exact finish_carried moved
  | destroy d => exact destroy_carried moved
  | getCg c memLimitMB => exact getCg_carried moved
  | receive c => exact receive_carried moved
  | getReturns c => exact getReturns_carried moved
  | pause c memUsageMB => exact pause_carried moved
  | unpause c => exact unpause_carried moved
  | killAndRelease c => exact killAndRelease_carried moved
  | remove c => exact remove_carried moved
  | credit c => exact credit_carried moved

def Pool.Owned (s : Pool) : Prop := Accounted s.hand s.stock s.Created

theorem newCgroupPool_owned : newCgroupPool.Owned := by
  have empty : newCgroupPool.hand = fun _ => none := by
    funext i
    cases i <;> rfl
  unfold Pool.Owned
  rw [empty]
  refine ⟨empty_custody,fun _ member => absurd member List.not_mem_nil,?_,?_⟩
  · intro i item holds
    cases holds
  · rintro item ⟨positive,bounded⟩
    exact absurd (Nat.lt_of_lt_of_le positive bounded) (Nat.lt_irrefl 0)

theorem reached_owned (ran : run (step conf) newCgroupPool actions = some s) : s.Owned :=
  run_preserves Pool.Owned (fun _ _ _ owned moved => carry_accounted owned (step_carried moved)) newCgroupPool_owned ran

end OpenLambda.Cgroups
