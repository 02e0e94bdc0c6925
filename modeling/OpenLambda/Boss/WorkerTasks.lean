import OpenLambda.Boss.WorkerHands
import OpenLambda.Foundation.Tally

namespace OpenLambda.Boss
open Foundation.Runs Foundation.Tally Foundation.Hands

-- A RunLambda call has chosen its worker when it received it from the queue; it
-- is counted in numTask later, after it sent the worker back.
def Pc.chose : Pc → Option Nat
  | .requeueing w true | .entering w | .forwarding w | .leaving w => some w
  | _ => none

def Pc.uncounted : Pc → Option Nat
  | .requeueing w true | .entering w => some w
  | _ => none

def Pc.counted : Pc → Option Nat
  | .forwarding w | .leaving w => some w
  | _ => none

-- numTask is 1 from before CreateInstance on until the starter resets it.
def Pc.boots : Pc → Option Nat
  | .creating w true | .registering w | .queueing w | .opening w => some w
  | _ => none

def Pc.tasks : Pc → Option Nat
  | .creating w true | .registering w | .queueing w | .opening w | .forwarding w | .leaving w => some w
  | _ => none

def Pc.uses : Pc → Option Nat
  | .opening w | .entering w | .forwarding w | .leaving w => some w
  | _ => none

def Pc.spares : Pc → Option Nat
  | .creating w _ | .registering w | .queueing w | .destroying w | .deleting w _ | .removing w => some w
  | _ => none

def WorkerPool.number (s : WorkerPool) (part : Pc → Option Nat) (w : Nat) : Int :=
  tally s.nextGo fun i => if part (s.go i).pc = some w then 1 else 0

theorem number_at {s : WorkerPool} (known : i < s.nextGo) (part : Pc → Option Nat) (w : Nat) (g : Goroutine) :
    {s with go := Function.update s.go i g}.number part w =
      s.number part w - (if part (s.go i).pc = some w then 1 else 0) + (if part g.pc = some w then 1 else 0) :=
  tally_update known s.go g fun _ g => if part g.pc = some w then 1 else 0

theorem number_spawn (s : WorkerPool) (part : Pc → Option Nat) (w : Nat) (pc : Pc) :
    (s.spawn pc).number part w = s.number part w + (if part pc = some w then 1 else 0) := by
  have same : ∀ i, i < s.nextGo → (if part ((s.spawn pc).go i).pc = some w then 1 else 0) =
      (if part (s.go i).pc = some w then (1 : Int) else 0) := by
    intro i known
    simp [WorkerPool.spawn,Function.update_of_ne (Nat.ne_of_lt known)]
  have last : ((s.spawn pc).go s.nextGo).pc = pc := by simp [WorkerPool.spawn]
  unfold WorkerPool.number
  change tally (s.nextGo + 1) _ = _
  rw [tally_succ,tally_congr same,last]

theorem share_nonneg (part : Option Nat) (w : Nat) : (0 : Int) ≤ if part = some w then 1 else 0 := by
  split
  · exact Int.one_nonneg
  · exact Int.le_refl 0

theorem number_nonneg (s : WorkerPool) (part : Pc → Option Nat) (w : Nat) : 0 ≤ s.number part w :=
  tally_nonneg fun _ _ => share_nonneg _ w

theorem number_none_iff (s : WorkerPool) (part : Pc → Option Nat) (w : Nat) :
    s.number part w = 0 ↔ ∀ i, i < s.nextGo → part (s.go i).pc ≠ some w := by
  constructor
  · intro none i known here
    have one : (if part (s.go i).pc = some w then 1 else 0) ≤ s.number part w :=
      le_tally (fun j _ => share_nonneg (part (s.go j).pc) w) known
    rw [if_pos here,none] at one
    exact absurd one (by decide)
  · intro nobody
    have zero : s.number part w = tally s.nextGo fun _ => 0 := tally_congr fun i known => if_neg (nobody i known)
    rw [zero,tally_none]

theorem number_add {first second both : Pc → Option Nat}
    (split : ∀ pc, (if both pc = some w then (1 : Int) else 0) =
      (if first pc = some w then 1 else 0) + (if second pc = some w then 1 else 0)) (s : WorkerPool) :
    s.number both w = s.number first w + s.number second w := by
  unfold WorkerPool.number
  rw [← tally_add]
  exact tally_congr fun i _ => split _

def Balanced (s : WorkerPool) : Prop := ∀ w, (s.worker w).numTask = s.number Pc.tasks w

theorem at_balanced (balanced : Balanced s) (known : i < s.nextGo) (pc : Pc) (stack : List (Int × List Nat))
    (tasks : pc.tasks = (s.go i).pc.tasks) : Balanced {s with go := Function.update s.go i ⟨pc,stack⟩} := by
  intro w
  rw [number_at known,tasks,Int.sub_add_cancel]
  exact balanced w

theorem spawn_balanced (balanced : Balanced s) (pc : Pc) (tasks : pc.tasks = none) : Balanced (s.spawn pc) := by
  intro w
  rw [number_spawn,tasks,if_neg nofun,Int.add_zero]
  exact balanced w

theorem back_balanced (balanced : Balanced s) (known : i < s.nextGo) (tasks : (s.go i).pc.tasks = none) :
    Balanced (s.back i) := by
  unfold WorkerPool.back
  split
  · exact at_balanced balanced known _ _ tasks.symm
  · exact at_balanced balanced known _ _ tasks.symm

theorem put_balanced (balanced : Balanced s) (w : Nat) (x : Worker) (same : x.numTask = (s.worker w).numTask) :
    Balanced (s.put w x) := by
  intro v
  change ((s.put w x).worker v).numTask = s.number Pc.tasks v
  rw [put_worker]
  split
  · rename_i here
    subst v
    exact same.trans (balanced w)
  · exact balanced v

theorem entered_balanced (balanced : Balanced s) (known : i < s.nextGo) (before : (s.go i).pc.tasks = none)
    (after : pc.tasks = some w) (one : x.numTask = (s.worker w).numTask + 1) : Balanced ((s.put w x).at i pc) := by
  intro v
  change ((s.put w x).worker v).numTask = {s with go := Function.update s.go i {s.go i with pc := pc}}.number Pc.tasks v
  rw [number_at known,before,after,put_worker,if_neg (nofun : none ≠ some v),Int.sub_zero]
  split
  · rename_i same
    subst v
    rw [if_pos rfl,one,balanced]
  · rename_i other
    rw [if_neg (by simpa using Ne.symm other),Int.add_zero]
    exact balanced v

theorem left_balanced (balanced : Balanced s) (known : i < s.nextGo) (before : (s.go i).pc.tasks = some w)
    (after : pc.tasks = none) (one : x.numTask = (s.worker w).numTask - 1) : Balanced ((s.put w x).at i pc) := by
  intro v
  change ((s.put w x).worker v).numTask = {s with go := Function.update s.go i {s.go i with pc := pc}}.number Pc.tasks v
  rw [number_at known,before,after,put_worker,if_neg (nofun : none ≠ some v),Int.add_zero]
  split
  · rename_i same
    subst v
    rw [if_pos rfl,one,balanced]
  · rename_i other
    rw [if_neg (by simpa using Ne.symm other),Int.sub_zero]
    exact balanced v

def WorkerPool.Idle (s : WorkerPool) (w : Nat) : Prop := ∀ i, i < s.nextGo → (s.go i).pc.uses ≠ some w

structure Spared (s : WorkerPool) : Prop where
  spared : ∀ i w, (s.go i).pc.spares = some w → s.Idle w
  deleted : ∀ w, (s.worker w).deleting = true → s.Idle w
  fresh : ∀ w, s.nextId ≤ w → s.Idle w

theorem spares_unused {pc : Pc} (spares : pc.spares = some w) : pc.uses = none := by
  cases pc <;> cases spares <;> rfl

theorem spares_parts {pc : Pc} (spares : pc.spares = some w) : pc.hand = some w ∨ pc.retires = some w := by
  cases pc with
  | creating | registering | queueing => cases spares; exact .inl rfl
  | destroying | deleting | removing => cases spares; exact .inr rfl
  | _ => cases spares

theorem at_idle {s : WorkerPool} (idle : s.Idle w) (g : Goroutine) (unused : g.pc.uses ≠ some w) :
    {s with go := Function.update s.go i g}.Idle w := by
  intro j known
  change (Function.update s.go i g j).pc.uses ≠ some w
  rw [Function.update_apply]
  split
  · exact unused
  · exact idle j known

theorem spawn_idle {s : WorkerPool} (idle : s.Idle w) (pc : Pc) (unused : pc.uses ≠ some w) : (s.spawn pc).Idle w := by
  intro j known
  change (Function.update s.go s.nextGo _ j).pc.uses ≠ some w
  rw [Function.update_apply]
  split
  · exact unused
  · rename_i old
    exact idle j (Nat.lt_of_le_of_ne (Nat.le_of_lt_succ known) old)

theorem goto_spared (spared : Spared s) (g : Goroutine) (starts : ∀ w, g.pc.spares = some w → s.Idle w)
    (uses : ∀ w, g.pc.uses = some w → ¬ s.Idle w ∨
      (∀ j, j ≠ i → (s.go j).pc.spares ≠ some w) ∧ (s.worker w).deleting = false ∧ w < s.nextId) :
    Spared {s with go := Function.update s.go i g} := by
  constructor
  · intro j w there
    change (Function.update s.go i g j).pc.spares = some w at there
    rw [Function.update_apply] at there
    split at there
    · exact at_idle (starts w there) g (by rw [spares_unused there]; nofun)
    · rename_i other
      have idle := spared.spared j w there
      refine at_idle idle g fun used => ?_
      rcases uses w used with busy | ⟨nobody,_⟩
      · exact busy idle
      · exact nobody j other there
  · intro w deleting
    have idle := spared.deleted w deleting
    refine at_idle idle g fun used => ?_
    rcases uses w used with busy | ⟨_,never,_⟩
    · exact busy idle
    · cases never.symm.trans deleting
  · intro w beyond
    have idle := spared.fresh w beyond
    refine at_idle idle g fun used => ?_
    rcases uses w used with busy | ⟨_,_,known⟩
    · exact busy idle
    · exact absurd known (Nat.not_lt_of_le beyond)

theorem at_spared (spared : Spared s) (known : i < s.nextGo) (pc : Pc) (stack : List (Int × List Nat))
    (spares : pc.spares = none ∨ pc.spares = (s.go i).pc.spares) (uses : pc.uses = none ∨ pc.uses = (s.go i).pc.uses) :
    Spared {s with go := Function.update s.go i ⟨pc,stack⟩} := by
  refine goto_spared spared ⟨pc,stack⟩ ?_ ?_
  · intro w now
    rcases spares with nothing | same
    · cases nothing.symm.trans now
    · exact spared.spared i w (same.symm.trans now)
  · intro w now
    rcases uses with nothing | same
    · cases nothing.symm.trans now
    · exact .inl fun idle => idle i known (same.symm.trans now)

theorem spawn_spared (spared : Spared s) (pc : Pc) (spares : ∀ w, pc.spares = some w → s.Idle w)
    (unused : pc.uses = none) : Spared (s.spawn pc) := by
  have fine : ∀ w, pc.uses ≠ some w := by
    intro w
    rw [unused]
    nofun
  constructor
  · intro j w there
    change (Function.update s.go s.nextGo _ j).pc.spares = some w at there
    rw [Function.update_apply] at there
    split at there
    · exact spawn_idle (spares w there) pc (fine w)
    · exact spawn_idle (spared.spared j w there) pc (fine w)
  · exact fun w deleting => spawn_idle (spared.deleted w deleting) pc (fine w)
  · exact fun w beyond => spawn_idle (spared.fresh w beyond) pc (fine w)

theorem back_spared (spared : Spared s) (known : i < s.nextGo) : Spared (s.back i) := by
  unfold WorkerPool.back
  split
  · exact at_spared spared known _ _ (.inl rfl) (.inl rfl)
  · exact at_spared spared known _ _ (.inl rfl) (.inl rfl)

theorem put_spared (spared : Spared s) (w : Nat) (x : Worker) (deleting : x.deleting = true → s.Idle w) :
    Spared (s.put w x) := by
  refine ⟨spared.spared,?_,spared.fresh⟩
  intro v
  rw [put_worker]
  split
  · rename_i same
    subst v
    exact deleting
  · exact spared.deleted v

theorem handed_spared (dealt : Dealt s) (spared : Spared s) (holds : s.hands i = some w) (pc : Pc)
    (stack : List (Int × List Nat)) (free : pc.spares = none) (uses : pc.uses = none ∨ pc.uses = some w) :
    Spared {s with go := Function.update s.go i ⟨pc,stack⟩} := by
  obtain ⟨known,never⟩ := held_known dealt holds
  refine goto_spared spared ⟨pc,stack⟩ ?_ ?_
  · intro v now
    cases free.symm.trans now
  · intro v now
    rcases uses with nothing | mine
    · cases nothing.symm.trans now
    · cases mine.symm.trans now
      refine .inr ⟨?_,Bool.eq_false_iff.mpr fun deleting => never (.inr (.inr deleting)),known⟩
      intro j other there
      rcases spares_parts there with held | retires
      · exact other (dealt.custody.apart j i w held holds)
      · exact never (.inl ⟨j,retires⟩)

-- The starter resets numTask only when it counts nothing but the start, and the
-- drain loop ends only when no call has still to count itself.
def settled (s : WorkerPool) : Action → Bool
  | .go i => match (s.go i).pc with
      | .opening w => decide ((s.worker w).numTask = 1)
      | .draining w => decide (0 < (s.worker w).numTask) ||
          (List.range s.nextGo).all fun j => decide ((s.go j).pc ≠ .entering w)
      | _ => true
  | _ => true

theorem tasks_parts {pc : Pc} (tasks : pc.tasks = some w) : pc.hand = some w ∨ pc.uses = some w := by
  cases pc with
  | creating v called =>
      cases called with
      | false => cases tasks
      | true => cases tasks; exact .inl rfl
  | registering | queueing => cases tasks; exact .inl rfl
  | opening | forwarding | leaving => cases tasks; exact .inr rfl
  | _ => cases tasks

theorem uses_parts {pc : Pc} (uses : pc.uses = some w) : pc = .entering w ∨ pc.tasks = some w := by
  cases pc with
  | entering => cases uses; exact .inl rfl
  | opening | forwarding | leaving => cases uses; exact .inr rfl
  | _ => cases uses

theorem creating_unused (dealt : Dealt s) (balanced : Balanced s) (spared : Spared s)
    (here : (s.go i).pc = .creating w false) : (s.worker w).numTask = 0 := by
  rw [balanced]
  apply (number_none_iff s Pc.tasks w).mpr
  intro j known tasks
  rcases tasks_parts tasks with holds | uses
  · have mine : s.hands i = some w := congrArg Pc.hand here
    cases dealt.custody.apart j i w holds mine
    cases (congrArg Pc.tasks here).symm.trans tasks
  · exact spared.spared i w (congrArg Pc.spares here) j known uses

theorem born_balanced (dealt : Dealt s) (balanced : Balanced s) (spared : Spared s) (zero : x.numTask = 0) :
    Balanced (s.put s.nextId x) := by
  refine put_balanced balanced s.nextId x ?_
  rw [zero,balanced]
  symm
  apply (number_none_iff s Pc.tasks s.nextId).mpr
  intro j known tasks
  rcases tasks_parts tasks with holds | uses
  · exact Nat.lt_irrefl _ (held_known dealt holds).1
  · exact spared.fresh s.nextId (Nat.le_refl _) j known uses

theorem drained_idle (balanced : Balanced s) (here : (s.go i).pc = .draining w) (none : (s.worker w).numTask ≤ 0)
    (ok : settled s (.go i) = true) : s.Idle w := by
  have zero : s.number Pc.tasks w = 0 := by
    have nonneg := number_nonneg s Pc.tasks w
    rw [← balanced w] at nonneg ⊢
    exact Int.le_antisymm none nonneg
  have entering : ∀ j, j < s.nextGo → (s.go j).pc ≠ .entering w := by
    simpa [settled,here,Int.not_lt.mpr none] using ok
  intro j known uses
  rcases uses_parts uses with enters | tasks
  · exact entering j known enters
  · exact (number_none_iff s Pc.tasks w).mp zero j known tasks

theorem move_balanced (dealt : Dealt s) (balanced : Balanced s) (spared : Spared s) (known : i < s.nextGo)
    (move : Move s i t) (ok : settled s (.go i) = true) : Balanced t := by
  cases move with
  | sized here | short here | enough here | excess here | noExcess here | allCleaned here | lack here | busy here
  | drained here | waits here | deleted here | created here | forwarded here =>
      exact at_balanced balanced known _ _ (congrArg Pc.tasks here).symm
  | targeted here | givesUp here | took here | queued here =>
      exact at_balanced balanced known _ (s.go i).stack (congrArg Pc.tasks here).symm
  | received run here => exact at_balanced balanced known _ (s.go i).stack (congrArg Pc.tasks here).symm
  | requeued run here =>
      refine at_balanced balanced known _ (s.go i).stack ?_
      rw [here]
      cases run <;> rfl
  | allStarted here | noLack here | allRecovered here => exact back_balanced balanced known (congrArg Pc.tasks here)
  | registered here | deletes here | removed here | recovered here =>
      refine at_balanced (put_balanced balanced _ _ ?_) known _ _ ?_
      · rfl
      · exact (congrArg Pc.tasks here).symm
  | cleaned here | destroyed here =>
      refine spawn_balanced (at_balanced (put_balanced balanced _ _ ?_) known _ (s.go i).stack ?_) _ rfl
      · rfl
      · exact (congrArg Pc.tasks here).symm
  | @started left here =>
      have born : Balanced (s.put s.nextId ⟨.starting,fun state => state == WorkerState.starting,0,true,false⟩) :=
        born_balanced dealt balanced spared rfl
      exact spawn_balanced (at_balanced born known (.starting left) (s.go i).stack (congrArg Pc.tasks here).symm)
        (.creating s.nextId false) rfl
  | creates here =>
      have zero := creating_unused dealt balanced spared here
      exact entered_balanced balanced known (congrArg Pc.tasks here) rfl (by rw [zero]; rfl)
  | @opened w here =>
      have one : (s.worker w).numTask = 1 := by simpa [settled,here] using ok
      exact left_balanced balanced known (congrArg Pc.tasks here) rfl (by rw [one]; rfl)
  | entered here => exact entered_balanced balanced known (congrArg Pc.tasks here) rfl rfl
  | left here => exact left_balanced balanced known (congrArg Pc.tasks here) rfl rfl

theorem move_spared (dealt : Dealt s) (balanced : Balanced s) (spared : Spared s) (known : i < s.nextGo)
    (move : Move s i t) (ok : settled s (.go i) = true) : Spared t := by
  cases move with
  | sized | short | enough | excess | noExcess | allCleaned | lack | busy | waits =>
      exact at_spared spared known _ _ (.inl rfl) (.inl rfl)
  | allStarted | noLack | allRecovered => exact back_spared spared known
  | @targeted target here =>
      have set : Spared {s with target := target} := {spared with}
      exact at_spared set known .sizing (s.go i).stack (.inl rfl) (.inl rfl)
  | givesUp here recovered => exact {at_spared spared known .done (s.go i).stack (.inl rfl) (.inl rfl) with}
  | took here queue => exact {at_spared spared known (.cleaning _ _) (s.go i).stack (.inl rfl) (.inl rfl) with}
  | received run here queue =>
      exact {at_spared spared known (.requeueing _ run) (s.go i).stack (.inl rfl) (.inl rfl) with}
  | recovered here =>
      refine at_spared (put_spared spared _ _ ?_) known .sizing _ (.inl rfl) (.inl rfl)
      exact spared.deleted _
  -- a worker that nobody uses
  | @started left here =>
      have grown : Spared {s with nextId := s.nextId + 1} :=
        {spared with fresh := fun w beyond => spared.fresh w (Nat.le_of_succ_le beyond)}
      have born := put_spared grown s.nextId ⟨.starting,fun state => state == WorkerState.starting,0,true,false⟩ nofun
      refine spawn_spared (at_spared born known (.starting left) (s.go i).stack (.inl rfl) (.inl rfl)) _ ?_ rfl
      intro w same
      cases same
      exact at_idle (spared.fresh s.nextId (Nat.le_refl _)) ⟨.starting left,(s.go i).stack⟩ nofun
  | creates here =>
      refine at_spared (put_spared spared _ _ ?_) known _ _ (.inr (congrArg Pc.spares here).symm) (.inl rfl)
      exact spared.deleted _
  | created here | deleted here => exact at_spared spared known _ _ (.inr (congrArg Pc.spares here).symm) (.inl rfl)
  | @registered w here =>
      have shifted := put_spared spared w ((s.worker w).shift .starting .running) (spared.deleted w)
      exact {at_spared shifted known (.queueing w) (s.go i).stack (.inr (congrArg Pc.spares here).symm) (.inl rfl) with}
  | drained here none =>
      refine goto_spared spared ⟨.destroying _,(s.go i).stack⟩ ?_ nofun
      intro w same
      cases same
      exact drained_idle balanced here none ok
  | @destroyed w here =>
      have shifted := put_spared spared w ((s.worker w).shift .cleaning .destroying) (spared.deleted w)
      refine spawn_spared (at_spared shifted known .done (s.go i).stack (.inl rfl) (.inl rfl)) _ ?_ rfl
      intro v same
      cases same
      exact at_idle (spared.spared i w (congrArg Pc.spares here)) ⟨.done,(s.go i).stack⟩ nofun
  | deletes here =>
      refine at_spared (put_spared spared _ _ ?_) known _ _ (.inr (congrArg Pc.spares here).symm) (.inl rfl)
      exact fun _ => spared.spared i _ (congrArg Pc.spares here)
  | removed here =>
      refine at_spared (put_spared spared _ _ ?_) known _ _ (.inl rfl) (.inl rfl)
      exact spared.deleted _
  | @cleaned w left here =>
      have shifted := put_spared spared w ((s.worker w).shift .running .cleaning) (spared.deleted w)
      exact spawn_spared (at_spared shifted known (.taking left) (s.go i).stack (.inl rfl) (.inl rfl)) _ nofun rfl
  -- a worker that is or comes into use
  | queued here =>
      exact {handed_spared dealt spared (congrArg Pc.hand here) (.opening _) (s.go i).stack rfl (.inr rfl) with}
  | @requeued w run here =>
      have free : (if run then Pc.entering w else .done).spares = none := by cases run <;> rfl
      have uses : (if run then Pc.entering w else .done).uses = none ∨
          (if run then Pc.entering w else .done).uses = some w := by
        cases run
        · exact .inl rfl
        · exact .inr rfl
      exact {handed_spared dealt spared (congrArg Pc.hand here) _ (s.go i).stack free uses with}
  | @opened w here =>
      have reset := put_spared spared w {s.worker w with numTask := 0} (spared.deleted w)
      exact {at_spared reset known .sizing (s.go i).stack (.inl rfl) (.inl rfl) with}
  | entered here =>
      refine at_spared (put_spared spared _ _ ?_) known _ _ (.inl rfl) (.inr (congrArg Pc.uses here).symm)
      exact spared.deleted _
  | forwarded here => exact at_spared spared known _ _ (.inl rfl) (.inr (congrArg Pc.uses here).symm)
  | left here =>
      refine at_spared (put_spared spared _ _ ?_) known _ _ (.inl rfl) (.inl rfl)
      exact spared.deleted _

structure Tasked (s : WorkerPool) : Prop where
  dealt : Dealt s
  balanced : Balanced s
  spared : Spared s

theorem turn_tasked (tasked : Tasked s) (turn : Turn s action t) (ok : settled s action = true) : Tasked t := by
  refine ⟨turn_dealt tasked.dealt turn,?_,?_⟩
  · cases turn with
    | setTarget | runLambda | getWorker => exact spawn_balanced tasked.balanced _ rfl
    | moved known _ move => exact move_balanced tasked.dealt tasked.balanced tasked.spared known move ok
    | chose known _ here => exact at_balanced tasked.balanced known _ _ (congrArg Pc.tasks here).symm
    | failed => exact tasked.balanced
  · cases turn with
    | setTarget | runLambda | getWorker => exact spawn_spared tasked.spared _ nofun rfl
    | moved known _ move => exact move_spared tasked.dealt tasked.balanced tasked.spared known move ok
    | chose known => exact at_spared tasked.spared known _ _ (.inl rfl) (.inl rfl)
    | failed => exact {tasked.spared with}

theorem new_tasked (cap : Nat) : Tasked (newWorkerPool cap) where
  dealt := new_dealt cap
  balanced := fun _ => (tally_zero _).symm
  spared := ⟨fun _ _ => nofun,fun _ => nofun,fun _ _ _ => nofun⟩

theorem chose_parts (pc : Pc) (w : Nat) : (if pc.chose = some w then (1 : Int) else 0) =
    (if pc.uncounted = some w then 1 else 0) + (if pc.counted = some w then 1 else 0) := by
  cases pc with
  | requeueing v run => cases run <;> simp [Pc.chose,Pc.uncounted,Pc.counted]
  | _ => simp [Pc.chose,Pc.uncounted,Pc.counted]

theorem tasks_shares (pc : Pc) (w : Nat) : (if pc.tasks = some w then (1 : Int) else 0) =
    (if pc.counted = some w then 1 else 0) + (if pc.boots = some w then 1 else 0) := by
  cases pc with
  | creating v called => cases called <;> simp [Pc.tasks,Pc.counted,Pc.boots]
  | _ => simp [Pc.tasks,Pc.counted,Pc.boots]

theorem deleted_unchosen (tasked : Tasked s) (deleting : (s.worker w).deleting = true) : s.number Pc.chose w = 0 := by
  apply (number_none_iff s Pc.chose w).mpr
  intro i known chose
  cases pc : (s.go i).pc with
  | requeueing v run =>
      rw [pc] at chose
      cases run with
      | false => cases chose
      | true =>
          cases chose
          exact (tasked.dealt.retired w (.inr (.inr deleting))).2 i (congrArg Pc.hand pc)
  | entering | forwarding | leaving =>
      rw [pc] at chose
      cases chose
      exact tasked.spared.deleted w deleting i known (congrArg Pc.uses pc)
  | _ =>
      rw [pc] at chose
      cases chose

theorem numTask_shares (tasked : Tasked s) (w : Nat) :
    (s.worker w).numTask = s.number Pc.chose w - s.number Pc.uncounted w + s.number Pc.boots w := by
  have chose := number_add (fun pc => chose_parts pc w) s
  have tasks := number_add (fun pc => tasks_shares pc w) s
  have balance := tasked.balanced w
  omega

-- The equation of numTask fails in the windows between two writes of RunLambda and
-- of the starter, and nowhere else.
theorem tasks_counted (meets : Meets step (fun s action => settled s action = true) (newWorkerPool cap) actions)
    (ran : run step (newWorkerPool cap) actions = some s) (w : Nat) :
    0 ≤ (s.worker w).numTask ∧
    ((s.worker w).numTask = s.number Pc.chose w ↔ s.number Pc.uncounted w = s.number Pc.boots w) ∧
    ((s.worker w).deleting = true → s.number Pc.chose w = 0) := by
  have tasked : Tasked s := run_preserves_guarded Tasked
    (fun _ _ _ tasked ok moved => turn_tasked tasked (step_turn moved).2 ok) (new_tasked cap) meets ran
  refine ⟨?_,?_,deleted_unchosen tasked⟩
  · rw [tasked.balanced]
    exact number_nonneg s Pc.tasks w
  · have shares := numTask_shares tasked w
    omega

def chosen : List Action :=
  .setTarget 1 :: goes 0 4 ++ goes 1 5 ++ .runLambda :: goes 2 2

def destroyed : List Action := .setTarget 0 :: goes 3 6 ++ goes 4 2 ++ goes 5 1

theorem tasks_counted_destroyed :
    (∃ s, run step (newWorkerPool 1) (chosen ++ goes 2 1) = some s ∧ s.number Pc.chose 1 = 1 ∧ (s.worker 1).numTask = 1) ∧
    ∃ s, run step (newWorkerPool 1) (chosen ++ goes 2 3 ++ destroyed) = some s ∧
      (s.worker 1).deleting = true ∧ s.number Pc.chose 1 = 0 := by
  constructor
  · have meets : Meets step (fun s action => settled s action = true) (newWorkerPool 1) (chosen ++ goes 2 1) := by
      decide +kernel
    have seen : ∃ s, run step (newWorkerPool 1) (chosen ++ goes 2 1) = some s ∧
        (s.number Pc.chose 1 = 1 ∧ s.number Pc.uncounted 1 = s.number Pc.boots 1) := run_seen (by decide +kernel)
    obtain ⟨s,ran,chose,even⟩ := seen
    exact ⟨s,ran,chose,((tasks_counted meets ran 1).2.1.mpr even).trans chose⟩
  · have meets : Meets step (fun s action => settled s action = true) (newWorkerPool 1)
        (chosen ++ goes 2 3 ++ destroyed) := by decide +kernel
    have seen : ∃ s, run step (newWorkerPool 1) (chosen ++ goes 2 3 ++ destroyed) = some s ∧
        (s.worker 1).deleting = true := run_seen (by decide +kernel)
    obtain ⟨s,ran,deleting⟩ := seen
    exact ⟨s,ran,deleting,(tasks_counted meets ran 1).2.2 deleting⟩

-- The call that chose the worker has not counted itself when the drain loop looks; a
-- call that counts itself before the starter's reset makes numTask negative; and with
-- nobody in a hurry, one that has just received the worker is missing in numTask.
theorem request_in_flight_uncounted :
    (∃ s, run step (newWorkerPool 1) (chosen ++ destroyed) = some s ∧
      (s.worker 1).deleting = true ∧ s.number Pc.chose 1 = 1) ∧
    (∃ s, run step (newWorkerPool 1) (.setTarget 1 :: goes 0 4 ++ goes 1 4 ++ .runLambda :: goes 2 3 ++
        goes 1 1 ++ goes 2 2) = some s ∧
      (s.worker 1).maps .running = true ∧ (s.worker 1).numTask = -1) ∧
    ∃ s, run step (newWorkerPool 1) chosen = some s ∧
      (s.worker 1).maps .running = true ∧ (s.worker 1).numTask = 0 ∧ s.number Pc.chose 1 = 1 := by
  refine ⟨run_seen ?_,run_seen ?_,run_seen ?_⟩
  · decide +kernel
  · decide +kernel
  · decide +kernel

end OpenLambda.Boss
