import OpenLambda.Boss.WorkerHands

namespace OpenLambda.Boss
open Foundation.Runs

def Pc.deletes : Pc → Option Nat
  | .deleting w _ | .removing w => some w
  | _ => none

structure Sorted (s : WorkerPool) : Prop where
  placed : ∀ w state, (s.worker w).maps state = ((s.worker w).present && decide (state = (s.worker w).state))
  known : ∀ w, (s.worker w).state = .running ∨ (s.worker w).state = .cleaning → (s.worker w).present = true
  fresh : ∀ w, s.nextId ≤ w → (s.worker w).present = false ∧ (s.worker w).state = .starting
  deleting : ∀ w, (s.worker w).deleting = true → (s.worker w).state = .destroying
  carried : ∀ i w state, (s.go i).pc.carries = some (w,state) → (s.worker w).present = true ∧ (s.worker w).state = state
  apart : ∀ i j w state other, (s.go i).pc.carries = some (w,state) → (s.go j).pc.carries = some (w,other) → i = j
  queued : ∀ w ∈ s.queue, (s.worker w).present = true ∧ (s.worker w).state = .running ∧
    ∀ i state, (s.go i).pc.carries ≠ some (w,state)
  distinct : s.queue.Nodup
  deletes : ∀ i w, (s.go i).pc.deletes = some w → (s.worker w).state = .destroying

structure Placed (s : WorkerPool) : Prop where
  placed : ∀ w state, (s.worker w).maps state = ((s.worker w).present && decide (state = (s.worker w).state))
  known : ∀ w, (s.worker w).state = .running ∨ (s.worker w).state = .cleaning → (s.worker w).present = true
  fresh : ∀ w, s.nextId ≤ w → (s.worker w).present = false ∧ (s.worker w).state = .starting
  deleting : ∀ w, (s.worker w).deleting = true → (s.worker w).state = .destroying
  deletes : ∀ i w, (s.go i).pc.deletes = some w → (s.worker w).state = .destroying

theorem maps_parts (placed : Placed s) (present : (s.worker w).maps state = true) :
    (s.worker w).present = true ∧ (s.worker w).state = state := by
  rw [placed.placed,Bool.and_eq_true,decide_eq_true_iff] at present
  exact ⟨present.1,present.2.symm⟩

theorem carried_hand {s : WorkerPool} (here : (s.go i).pc.carries = some (w,state)) : s.hands i = some w := by
  rw [WorkerPool.hands,Pc.hand,here]
  rfl

theorem dealt_sorted (dealt : Dealt s) (placed : Placed s) : Sorted s where
  placed := placed.placed
  known := placed.known
  fresh := placed.fresh
  deleting := placed.deleting
  carried := fun i w state here => maps_parts placed (dealt.carried i w state here)
  apart := fun i j w _ _ here there => dealt.custody.apart i j w (carried_hand here) (carried_hand there)
  queued := by
    intro w member
    obtain ⟨present,running⟩ := maps_parts placed (dealt.queued w member)
    exact ⟨present,running,fun i _ here => dealt.custody.outside i w (carried_hand here) member⟩
  distinct := dealt.custody.distinct
  deletes := placed.deletes

theorem new_placed (cap : Nat) : Placed (newWorkerPool cap) where
  placed := fun _ _ => rfl
  known := fun _ => nofun
  fresh := fun _ _ => ⟨rfl,rfl⟩
  deleting := fun _ => nofun
  deletes := fun _ _ => nofun

theorem goto_placed (placed : Placed s) (i : Nat) (g : Goroutine) (next : Nat)
    (deletes : ∀ w, g.pc.deletes = some w → (s.worker w).state = .destroying) :
    Placed {s with go := Function.update s.go i g,nextGo := next} := by
  refine {placed with deletes := ?_}
  intro j w here
  change (Function.update s.go i g j).pc.deletes = some w at here
  rw [Function.update_apply] at here
  split at here
  · exact deletes w here
  · exact placed.deletes j w here

theorem at_placed (placed : Placed s) (i : Nat) (pc : Pc) (stack : List (Int × List Nat))
    (deletes : pc.deletes = none ∨ pc.deletes = (s.go i).pc.deletes) :
    Placed {s with go := Function.update s.go i ⟨pc,stack⟩} := by
  refine goto_placed placed i ⟨pc,stack⟩ s.nextGo ?_
  intro w here
  rcases deletes with nothing | same
  · cases nothing.symm.trans here
  · exact placed.deletes i w (same.symm.trans here)

theorem spawn_placed (placed : Placed s) (pc : Pc) (deletes : ∀ w, pc.deletes = some w → (s.worker w).state = .destroying) :
    Placed (s.spawn pc) := goto_placed placed s.nextGo ⟨pc,[]⟩ (s.nextGo + 1) deletes

theorem back_placed (placed : Placed s) (i : Nat) : Placed (s.back i) := by
  unfold WorkerPool.back
  split
  · exact at_placed placed i _ _ (.inl rfl)
  · exact at_placed placed i _ _ (.inl rfl)

theorem put_placed (placed : Placed s) (w : Nat) (x : Worker)
    (maps : ∀ state, x.maps state = (x.present && decide (state = x.state)))
    (known : x.state = .running ∨ x.state = .cleaning → x.present = true)
    (fresh : s.nextId ≤ w → x.present = false ∧ x.state = .starting)
    (deleting : x.deleting = true → x.state = .destroying)
    (deletes : ∀ i, (s.go i).pc.deletes = some w → x.state = .destroying) : Placed (s.put w x) := by
  constructor
  · intro v state
    rw [put_worker]
    split
    · exact maps state
    · exact placed.placed v state
  · intro v
    rw [put_worker]
    split
    · exact known
    · exact placed.known v
  · intro v new
    rw [put_worker]
    split
    · rename_i same
      exact fresh (same ▸ new)
    · exact placed.fresh v new
  · intro v
    rw [put_worker]
    split
    · exact deleting
    · exact placed.deleting v
  · intro i v here
    rw [put_worker]
    split
    · rename_i same
      exact deletes i (same ▸ here)
    · exact placed.deletes i v here

theorem tasks_placed (placed : Placed s) (w : Nat) (numTask : Int) :
    Placed (s.put w {s.worker w with numTask := numTask}) :=
  put_placed placed w _ (placed.placed w) (placed.known w) (placed.fresh w) (placed.deleting w)
    (fun i => placed.deletes i w)

theorem flagged_placed (placed : Placed s) (destroying : (s.worker w).state = .destroying) :
    Placed (s.put w {s.worker w with deleting := true}) :=
  put_placed placed w _ (placed.placed w) (placed.known w) (placed.fresh w) (fun _ => destroying)
    (fun i => placed.deletes i w)

theorem shifted_maps {x : Worker} (maps : ∀ state, x.maps state = (x.present && decide (state = x.state)))
    (present : x.present = true) (known : x.state = before ∨ x.state = after) (state : WorkerState) :
    (x.shift before after).maps state = (x.present && decide (state = after)) := by
  rw [present,Bool.true_and]
  change (if state = after then true else if state = before then false else x.maps state) = _
  rw [maps,present,Bool.true_and]
  by_cases moved : state = after
  · simp [moved]
  · by_cases same : state = before
    · subst same
      simp [moved]
    · rcases known with old | new
      · simp [moved,same,old]
      · simp [moved,same,new]

theorem shift_placed (before after : WorkerState) (placed : Placed s) (present : (s.worker w).present = true)
    (known : (s.worker w).state = before ∨ (s.worker w).state = after) (kept : before ≠ .destroying) :
    Placed (s.put w ((s.worker w).shift before after)) := by
  have ended : (s.worker w).state = .destroying → after = .destroying := by
    intro destroying
    rcases known with old | new
    · exact absurd (old.symm.trans destroying) kept
    · exact new.symm.trans destroying
  refine put_placed placed w _ (shifted_maps (placed.placed w) present known) (fun _ => present) ?_ ?_ ?_
  · intro new
    cases present.symm.trans (placed.fresh w new).1
  · exact fun deleting => ended (placed.deleting w deleting)
  · exact fun i here => ended (placed.deletes i w here)

theorem startNewWorker_placed (placed : Placed s) (i left : Nat) : Placed (s.startNewWorker i left) := by
  have unborn := (placed.fresh s.nextId (Nat.le_refl _)).2
  have grown : Placed {s with nextId := s.nextId + 1} :=
    {placed with fresh := fun w new => placed.fresh w (Nat.le_of_succ_le new)}
  let x : Worker := ⟨.starting,fun state => state == WorkerState.starting,0,true,false⟩
  have born : Placed ({s with nextId := s.nextId + 1}.put s.nextId x) := by
    refine put_placed grown s.nextId x (fun _ => rfl) (fun _ => rfl) ?_ nofun ?_
    · exact fun new => absurd new (Nat.not_succ_le_self _)
    · intro j here
      cases unborn.symm.trans (placed.deletes j s.nextId here)
  exact spawn_placed (at_placed born i (.starting left) (s.go i).stack (.inl rfl)) (.creating s.nextId false) nofun

theorem detroyWorker_placed (placed : Placed s) (i : Nat) (cleaning : (s.worker w).maps .cleaning = true) :
    Placed (s.detroyWorker i w) := by
  obtain ⟨present,state⟩ := maps_parts placed cleaning
  have shifted := shift_placed .cleaning .destroying placed present (.inl state) nofun
  refine spawn_placed (at_placed shifted i .done (s.go i).stack (.inl rfl)) (.deleting w false) ?_
  intro v there
  cases there
  simp [WorkerPool.put,Worker.shift]

theorem removed_placed (placed : Placed s) (here : (s.go i).pc = .removing w) :
    Placed (s.put w {s.worker w with
      maps := Function.update (s.worker w).maps .destroying false
      present := false}) := by
  have destroying := placed.deletes i w (congrArg Pc.deletes here)
  refine put_placed placed w _ ?_ ?_ ?_ (fun _ => destroying) (fun _ _ => destroying)
  · intro state
    change Function.update (s.worker w).maps .destroying false state = false
    rw [Function.update_apply]
    split
    · rfl
    · rename_i other
      rw [placed.placed,destroying,decide_eq_false other,Bool.and_false]
  · intro wrong
    simp [destroying] at wrong
  · intro new
    cases destroying.symm.trans (placed.fresh w new).2

-- What recoverWorker and detroyWorker do not look at: that the worker chosen to be
-- recovered is not being destroyed by now, and that the drained one was not recovered.
def checked (s : WorkerPool) : Action → Bool
  | .go i => match (s.go i).pc with
      | .recovering w _ _ => (s.worker w).state == .cleaning || (s.worker w).state == .running
      | .destroying w => (s.worker w).maps .cleaning
      | _ => true
  | _ => true

theorem move_placed (dealt : Dealt s) (placed : Placed s) (move : Move s i t) (ok : checked s (.go i) = true) :
    Placed t := by
  cases move with
  | sized | short | enough | excess | noExcess | allCleaned | lack | busy | drained | waits | forwarded | created =>
      exact at_placed placed i _ _ (.inl rfl)
  | allStarted | noLack | allRecovered => exact back_placed placed i
  | @targeted target here =>
      have set : Placed {s with target := target} := {placed with}
      exact at_placed set i .sizing (s.go i).stack (.inl rfl)
  | givesUp here recovered => exact {at_placed placed i .done (s.go i).stack (.inl rfl) with}
  | queued here room => exact {at_placed placed i (.opening _) (s.go i).stack (.inl rfl) with}
  | took here queue => exact {at_placed placed i (.cleaning _ _) (s.go i).stack (.inl rfl) with}
  | received run here queue => exact {at_placed placed i (.requeueing _ run) (s.go i).stack (.inl rfl) with}
  | @requeued w run here room =>
      have next : (if run then Pc.entering w else .done).deletes = none := by cases run <;> rfl
      exact {at_placed placed i _ (s.go i).stack (.inl next) with}
  | creates | entered | left => exact at_placed (tasks_placed placed _ _) i _ _ (.inl rfl)
  | opened here => exact {at_placed (tasks_placed placed _ 0) i .sizing (s.go i).stack (.inl rfl) with}
  -- a worker in the hand of this goroutine
  | started here => exact startNewWorker_placed placed i _
  | registered here =>
      obtain ⟨present,starting⟩ := maps_parts placed (dealt.carried i _ _ (congrArg Pc.carries here))
      exact {at_placed (shift_placed .starting .running placed present (.inl starting) nofun) i (.queueing _)
        (s.go i).stack (.inl rfl) with}
  | cleaned here =>
      obtain ⟨present,running⟩ := maps_parts placed (dealt.carried i _ _ (congrArg Pc.carries here))
      have shifted := shift_placed .running .cleaning placed present (.inl running) nofun
      exact spawn_placed (at_placed shifted i (.taking _) (s.go i).stack (.inl rfl)) (.draining _) nofun
  -- the two steps on a worker that was looked at in an earlier critical section
  | @recovered w toBeRecover due here =>
      have known : (s.worker w).state = .cleaning ∨ (s.worker w).state = .running := by simpa [checked,here] using ok
      have shifted := shift_placed .cleaning .running placed (placed.known w known.symm) known nofun
      exact at_placed shifted i .sizing ((toBeRecover,due) :: (s.go i).stack) (.inl rfl)
  | destroyed here =>
      refine detroyWorker_placed placed i ?_
      simpa [checked,here] using ok
  | deletes here =>
      have flagged := flagged_placed placed (placed.deletes i _ (congrArg Pc.deletes here))
      exact at_placed flagged i _ _ (.inr (congrArg Pc.deletes here).symm)
  | deleted here => exact at_placed placed i _ _ (.inr (congrArg Pc.deletes here).symm)
  | removed here => exact at_placed (removed_placed placed here) i _ _ (.inl rfl)

theorem turn_placed (dealt : Dealt s) (placed : Placed s) (turn : Turn s action t) (ok : checked s action = true) :
    Placed t := by
  cases turn with
  | setTarget | runLambda | getWorker => exact spawn_placed placed _ nofun
  | moved known free move => exact move_placed dealt placed move ok
  | chose known free here more cleaning => exact at_placed placed _ _ _ (.inl rfl)
  | failed known here => exact {placed with}

theorem reached_sorted (meets : Meets step (fun s action => checked s action = true) (newWorkerPool cap) actions)
    (ran : run step (newWorkerPool cap) actions = some s) : Sorted s := by
  have both : Dealt s ∧ Placed s := by
    refine run_preserves_guarded (fun s => Dealt s ∧ Placed s) ?_ ⟨new_dealt cap,new_placed cap⟩ meets ran
    rintro s action t ⟨dealt,placed⟩ ok moved
    have turn := (step_turn moved).2
    exact ⟨turn_dealt dealt turn,turn_placed dealt placed turn ok⟩
  exact dealt_sorted both.1 both.2

theorem worker_in_one_state (meets : Meets step (fun s action => checked s action = true) (newWorkerPool cap) actions)
    (ran : run step (newWorkerPool cap) actions = some s) (w : Nat) :
    ((s.worker w).present = true → ∀ state, (s.worker w).maps state = true ↔ state = (s.worker w).state) ∧
      ((s.worker w).deleting = true → (s.worker w).maps .running = false) := by
  have sorted := reached_sorted meets ran
  constructor
  · intro present state
    rw [sorted.placed,present,Bool.true_and,decide_eq_true_iff]
  · intro deleting
    rw [sorted.placed,sorted.deleting w deleting]
    exact Bool.and_false _

def drained : List Action :=
  [Action.setTarget 1] ++ List.replicate 5 (Action.go 0) ++ List.replicate 9 (Action.go 1) ++
    [Action.setTarget 0] ++ List.replicate 11 (Action.go 2) ++ [Action.go 3]

theorem worker_in_one_state_destroyed : ∃ s, run step (newWorkerPool 1) (drained ++ [Action.go 3,Action.go 4]) = some s ∧
    (s.worker 1).deleting = true ∧ (s.worker 1).maps .running = false ∧
    ∀ state, (s.worker 1).maps state = true ↔ state = .destroying := by
  have meets : Meets step (fun s action => checked s action = true) (newWorkerPool 1) (drained ++ [Action.go 3,Action.go 4]) := by
    decide +kernel
  refine ⟨_,rfl,rfl,?_⟩
  have result := worker_in_one_state meets rfl 1
  exact ⟨result.2 rfl,result.1 rfl⟩

-- The target goes up again between the drain loop's last look at the tasks and
-- detroyWorker: updateCluster recovers the worker, and then it is destroyed.
theorem recovered_worker_destroyed : ∃ s, run step (newWorkerPool 1)
      (drained ++ [Action.setTarget 1] ++ List.replicate 5 (Action.go 4) ++
        [Action.choose 4 1,Action.go 4,Action.go 3,Action.go 5]) = some s ∧
    (s.worker 1).present = true ∧ (s.worker 1).state = .destroying ∧ (s.worker 1).maps .destroying = true ∧
    (s.worker 1).deleting = true ∧ (s.worker 1).maps .running = true :=
  ⟨_,rfl,rfl,rfl,rfl,rfl,rfl⟩

end OpenLambda.Boss
