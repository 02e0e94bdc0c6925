import OpenLambda.Foundation.Runs
import Mathlib.Data.List.Basic
import Mathlib.Logic.Function.Basic

namespace OpenLambda.Boss
open Foundation.Runs

inductive WorkerState where
  | starting
  | running
  | cleaning
  | destroying
  deriving DecidableEq, Repr

-- `maps` says in which of the four maps of pool.workers the worker is. `present`
-- and `deleting` are history: it was created and is not yet removed, and
-- DeleteInstance was started for it.
structure Worker where
  state : WorkerState
  maps : WorkerState → Bool
  numTask : Int
  present : Bool
  deleting : Bool

-- Where a goroutine of the pool is. In `creating` and `deleting` the flag says
-- whether the call of the platform has started; `run` tells RunLambda from
-- GetWorker, which put the worker they received back on the queue. `due` are the
-- workers that a range over pool.workers[CLEANING] produces if they stay in that
-- map, none if the range has not begun.
inductive Pc where
  | settingTarget (target : Int)
  | sizing
  | comparing (size : Int)
  | starting (left : Nat)
  | counting (scaleSize : Int)
  | taking (left : Nat)
  | cleaning (w left : Nat)
  | lacking
  | choosing (toBeRecover : Int) (due : Option (List Nat))
  | recovering (w : Nat) (toBeRecover : Int) (due : List Nat)
  | creating (w : Nat) (called : Bool)
  | registering (w : Nat)
  | queueing (w : Nat)
  | opening (w : Nat)
  | draining (w : Nat)
  | looking (w : Nat)
  | destroying (w : Nat)
  | deleting (w : Nat) (called : Bool)
  | removing (w : Nat)
  | receiving (run : Bool)
  | requeueing (w : Nat) (run : Bool)
  | entering (w : Nat)
  | forwarding (w : Nat)
  | leaving (w : Nat)
  | done
  deriving DecidableEq, Repr

-- updateCluster calls itself through recoverWorker: `stack` holds toBeRecover and
-- the range of the recover loops it has to go back to.
structure Goroutine where
  pc : Pc
  stack : List (Int × List Nat)
  deriving DecidableEq, Repr

-- `cap` is the capacity of the queue, `lock` the goroutine that holds the mutex.
structure WorkerPool where
  cap : Nat
  target : Int
  nextId : Nat
  worker : Nat → Worker
  queue : List Nat
  lock : Option Nat
  go : Nat → Goroutine
  nextGo : Nat
  fault : Option String

def absent : Worker := ⟨.starting,fun _ => false,0,false,false⟩

def newWorkerPool (cap : Nat) : WorkerPool := ⟨cap,0,1,fun _ => absent,[],none,fun _ => ⟨.done,[]⟩,0,none⟩

def WorkerPool.len (s : WorkerPool) (state : WorkerState) : Int :=
  ((List.range s.nextId).countP fun w => (s.worker w).maps state : Nat)

def WorkerPool.size (s : WorkerPool) : Int :=
  s.len .starting + s.len .running + s.len .cleaning + s.len .destroying

def WorkerPool.put (s : WorkerPool) (w : Nat) (x : Worker) : WorkerPool := {s with worker := Function.update s.worker w x}

def WorkerPool.at (s : WorkerPool) (i : Nat) (pc : Pc) : WorkerPool :=
  {s with go := Function.update s.go i {s.go i with pc := pc}}

def WorkerPool.spawn (s : WorkerPool) (pc : Pc) : WorkerPool :=
  {s with go := Function.update s.go s.nextGo ⟨pc,[]⟩,nextGo := s.nextGo + 1}

def WorkerPool.back (s : WorkerPool) (i : Nat) : WorkerPool :=
  {s with go := Function.update s.go i (match (s.go i).stack with
    | (toBeRecover,due) :: rest => ⟨.choosing (toBeRecover - 1) (some due),rest⟩
    | [] => ⟨.done,[]⟩)}

-- The state and the maps of a transition; which map the worker is in is not looked at.
def Worker.shift (x : Worker) (before after : WorkerState) : Worker :=
  {x with
    state := after
    maps := fun state => if state = after then true else if state = before then false else x.maps state}

def WorkerPool.startNewWorker (s : WorkerPool) (i left : Nat) : WorkerPool :=
  (({s with nextId := s.nextId + 1}.put s.nextId ⟨.starting,fun state => state == WorkerState.starting,0,true,false⟩).at i
    (.starting left)).spawn (.creating s.nextId false)

def WorkerPool.cleanWorker (s : WorkerPool) (i w left : Nat) : WorkerPool :=
  ((s.put w ((s.worker w).shift .running .cleaning)).at i (.taking left)).spawn (.draining w)

def WorkerPool.recoverWorker (s : WorkerPool) (i w : Nat) (toBeRecover : Int) (due : List Nat) : WorkerPool :=
  {s.put w ((s.worker w).shift .cleaning .running) with
    go := Function.update s.go i ⟨.sizing,(toBeRecover,due) :: (s.go i).stack⟩}

def WorkerPool.detroyWorker (s : WorkerPool) (i w : Nat) : WorkerPool :=
  ((s.put w ((s.worker w).shift .cleaning .destroying)).at i .done).spawn (.deleting w false)

def Pc.locks : Pc → Bool
  | .settingTarget _ | .sizing | .starting (_ + 1) | .counting _ | .cleaning _ _ | .lacking | .choosing _ _
  | .recovering _ _ _ | .registering _ | .looking _ | .destroying _ | .removing _ => true
  | _ => false

def WorkerPool.toBeClean (s : WorkerPool) (scaleSize : Int) : Int :=
  -scaleSize - s.len .cleaning - s.len .destroying - s.len .starting

def WorkerPool.toBeRecover (s : WorkerPool) : Int := s.target - s.len .starting - s.len .running

def WorkerPool.due (s : WorkerPool) (due : Option (List Nat)) : List Nat :=
  due.getD ((List.range s.nextId).filter fun w => (s.worker w).maps .cleaning)

-- The next step of a goroutine, with the mutex free if it needs it. Every
-- critical section is one step, but for that of a worker that becomes running,
-- which sends on the queue.
def WorkerPool.advance (s : WorkerPool) (i : Nat) : Option WorkerPool :=
  match (s.go i).pc with
  | .settingTarget target => some ({s with target := target}.at i .sizing)
  | .sizing => some (s.at i (.comparing s.size))
  | .comparing size =>
      let scaleSize := s.target - size
      some (s.at i (if 0 < scaleSize then .starting scaleSize.toNat else .counting scaleSize))
  | .starting 0 => some (s.back i)
  | .starting (left + 1) => some (s.startNewWorker i left)
  | .counting scaleSize =>
      let toBeClean := s.toBeClean scaleSize
      some (s.at i (if 0 < toBeClean then .taking toBeClean.toNat else .lacking))
  | .taking 0 => some (s.at i .sizing)
  | .taking (left + 1) => match s.queue with
      | w :: rest => some {s.at i (.cleaning w left) with queue := rest}
      | [] => none
  | .cleaning w left => some (s.cleanWorker i w left)
  | .lacking =>
      some (if 0 < s.toBeRecover then s.at i (.choosing s.toBeRecover none) else s.back i)
  | .choosing toBeRecover due =>
      if toBeRecover ≤ 0 ∨ (s.due due).all (fun w => !(s.worker w).maps .cleaning) then some (s.back i) else none
  | .recovering w toBeRecover due => some (s.recoverWorker i w toBeRecover due)
  | .creating w false => some ((s.put w {s.worker w with numTask := 1}).at i (.creating w true))
  | .creating w true => some (s.at i (.registering w))
  | .registering w =>
      some {(s.put w ((s.worker w).shift .starting .running)).at i (.queueing w) with lock := some i}
  | .queueing w =>
      if s.queue.length < s.cap then some {s.at i (.opening w) with queue := s.queue ++ [w]} else none
  | .opening w => some {(s.put w {s.worker w with numTask := 0}).at i .sizing with lock := none}
  | .draining w => some (s.at i (if 0 < (s.worker w).numTask then .looking w else .destroying w))
  | .looking w =>
      -- a worker that was recovered ends the goroutine, without an Unlock
      some (if (s.worker w).maps .cleaning then s.at i (.draining w) else {s.at i .done with lock := some i})
  | .destroying w => some (s.detroyWorker i w)
  | .deleting w false => some ((s.put w {s.worker w with deleting := true}).at i (.deleting w true))
  | .deleting w true => some (s.at i (.removing w))
  | .removing w =>
      some ((s.put w {s.worker w with
        maps := Function.update (s.worker w).maps .destroying false
        present := false}).at i .sizing)
  | .receiving run => match s.queue with
      | w :: rest => some {s.at i (.requeueing w run) with queue := rest}
      | [] => none
  | .requeueing w run =>
      if s.queue.length < s.cap then
        some {s.at i (if run then .entering w else .done) with queue := s.queue ++ [w]}
      else none
  | .entering w => some ((s.put w {s.worker w with numTask := (s.worker w).numTask + 1}).at i (.forwarding w))
  | .forwarding w => some (s.at i (.leaving w))
  | .leaving w => some ((s.put w {s.worker w with numTask := (s.worker w).numTask - 1}).at i .done)
  | .done => none

-- `choose` is the next worker that the range over the cleaning workers produces:
-- a worker that was added while the range runs may be produced too, or skipped.
-- `fail` is an error of CreateInstance or DeleteInstance, which panics.
inductive Action where
  | setTarget (target : Int)
  | runLambda
  | getWorker
  | go (i : Nat)
  | choose (i w : Nat)
  | fail (i : Nat) (err : String)
  deriving DecidableEq, Repr

def goes (i n : Nat) : List Action := List.replicate n (.go i)

def WorkerPool.choose (s : WorkerPool) (i w : Nat) : Option WorkerPool :=
  match (s.go i).pc with
  | .choosing toBeRecover due =>
      if s.lock = none ∧ 0 < toBeRecover ∧ (s.worker w).maps .cleaning then
        some (s.at i (.recovering w toBeRecover ((s.due due).erase w)))
      else none
  | _ => none

def WorkerPool.fail (s : WorkerPool) (i : Nat) (err : String) : Option WorkerPool :=
  match (s.go i).pc with
  | .creating _ true | .deleting _ true => some {s with fault := some err}
  | _ => none

def step (s : WorkerPool) (action : Action) : Option WorkerPool :=
  if s.fault ≠ none then none
  else match action with
    | .setTarget target => some (s.spawn (.settingTarget target))
    | .runLambda => some (s.spawn (.receiving true))
    | .getWorker => if s.len .starting + s.len .running = 0 then none else some (s.spawn (.receiving false))
    | .go i =>
        if i < s.nextGo ∧ (s.lock = none ∨ (s.go i).pc.locks = false) then s.advance i else none
    | .choose i w => if i < s.nextGo then s.choose i w else none
    | .fail i err => if i < s.nextGo then s.fail i err else none

inductive Move (s : WorkerPool) (i : Nat) : WorkerPool → Prop where
  | targeted : (s.go i).pc = .settingTarget target → Move s i ({s with target := target}.at i .sizing)
  | sized : (s.go i).pc = .sizing → Move s i (s.at i (.comparing s.size))
  | short : (s.go i).pc = .comparing size → 0 < s.target - size →
      Move s i (s.at i (.starting (s.target - size).toNat))
  | enough : (s.go i).pc = .comparing size → s.target - size ≤ 0 → Move s i (s.at i (.counting (s.target - size)))
  | allStarted : (s.go i).pc = .starting 0 → Move s i (s.back i)
  | started : (s.go i).pc = .starting (left + 1) → Move s i (s.startNewWorker i left)
  | excess : (s.go i).pc = .counting scaleSize → 0 < s.toBeClean scaleSize →
      Move s i (s.at i (.taking (s.toBeClean scaleSize).toNat))
  | noExcess : (s.go i).pc = .counting scaleSize → s.toBeClean scaleSize ≤ 0 → Move s i (s.at i .lacking)
  | allCleaned : (s.go i).pc = .taking 0 → Move s i (s.at i .sizing)
  | took : (s.go i).pc = .taking (left + 1) → s.queue = w :: rest →
      Move s i {s.at i (.cleaning w left) with queue := rest}
  | cleaned : (s.go i).pc = .cleaning w left → Move s i (s.cleanWorker i w left)
  | lack : (s.go i).pc = .lacking → 0 < s.toBeRecover → Move s i (s.at i (.choosing s.toBeRecover none))
  | noLack : (s.go i).pc = .lacking → s.toBeRecover ≤ 0 → Move s i (s.back i)
  | allRecovered : (s.go i).pc = .choosing toBeRecover due →
      toBeRecover ≤ 0 ∨ (∀ w ∈ s.due due, (s.worker w).maps .cleaning = false) → Move s i (s.back i)
  | recovered : (s.go i).pc = .recovering w toBeRecover due → Move s i (s.recoverWorker i w toBeRecover due)
  | creates : (s.go i).pc = .creating w false →
      Move s i ((s.put w {s.worker w with numTask := 1}).at i (.creating w true))
  | created : (s.go i).pc = .creating w true → Move s i (s.at i (.registering w))
  | registered : (s.go i).pc = .registering w →
      Move s i {(s.put w ((s.worker w).shift .starting .running)).at i (.queueing w) with lock := some i}
  | queued : (s.go i).pc = .queueing w → s.queue.length < s.cap →
      Move s i {s.at i (.opening w) with queue := s.queue ++ [w]}
  | opened : (s.go i).pc = .opening w →
      Move s i {(s.put w {s.worker w with numTask := 0}).at i .sizing with lock := none}
  | busy : (s.go i).pc = .draining w → 0 < (s.worker w).numTask → Move s i (s.at i (.looking w))
  | drained : (s.go i).pc = .draining w → (s.worker w).numTask ≤ 0 → Move s i (s.at i (.destroying w))
  | waits : (s.go i).pc = .looking w → (s.worker w).maps .cleaning = true → Move s i (s.at i (.draining w))
  | givesUp : (s.go i).pc = .looking w → (s.worker w).maps .cleaning = false →
      Move s i {s.at i .done with lock := some i}
  | destroyed : (s.go i).pc = .destroying w → Move s i (s.detroyWorker i w)
  | deletes : (s.go i).pc = .deleting w false →
      Move s i ((s.put w {s.worker w with deleting := true}).at i (.deleting w true))
  | deleted : (s.go i).pc = .deleting w true → Move s i (s.at i (.removing w))
  | removed : (s.go i).pc = .removing w →
      Move s i ((s.put w {s.worker w with
        maps := Function.update (s.worker w).maps .destroying false
        present := false}).at i .sizing)
  | received (run : Bool) : (s.go i).pc = .receiving run → s.queue = w :: rest →
      Move s i {s.at i (.requeueing w run) with queue := rest}
  | requeued (run : Bool) : (s.go i).pc = .requeueing w run → s.queue.length < s.cap →
      Move s i {s.at i (if run then .entering w else .done) with queue := s.queue ++ [w]}
  | entered : (s.go i).pc = .entering w →
      Move s i ((s.put w {s.worker w with numTask := (s.worker w).numTask + 1}).at i (.forwarding w))
  | forwarded : (s.go i).pc = .forwarding w → Move s i (s.at i (.leaving w))
  | left : (s.go i).pc = .leaving w →
      Move s i ((s.put w {s.worker w with numTask := (s.worker w).numTask - 1}).at i .done)

theorem advance_move (moved : s.advance i = some t) : Move s i t := by
  unfold WorkerPool.advance at moved
  split at moved
  all_goals rename_i here
  · cases moved; exact .targeted here
  · cases moved; exact .sized here
  · cases moved
    split
    · rename_i more
      exact .short here more
    · rename_i fewer
      exact .enough here (Int.not_lt.mp fewer)
  · cases moved; exact .allStarted here
  · cases moved; exact .started here
  · cases moved
    split
    · rename_i more
      exact .excess here more
    · rename_i fewer
      exact .noExcess here (Int.not_lt.mp fewer)
  · cases moved; exact .allCleaned here
  · split at moved
    · rename_i queue
      cases moved
      exact .took here queue
    · cases moved
  · cases moved; exact .cleaned here
  · cases moved
    split
    · rename_i more
      exact .lack here more
    · rename_i fewer
      exact .noLack here (Int.not_lt.mp fewer)
  · split at moved
    · rename_i ended
      cases moved
      exact .allRecovered here (ended.imp_right (by simp))
    · cases moved
  · cases moved; exact .recovered here
  · cases moved; exact .creates here
  · cases moved; exact .created here
  · cases moved; exact .registered here
  · split at moved
    · rename_i room
      cases moved
      exact .queued here room
    · cases moved
  · cases moved; exact .opened here
  · cases moved
    split
    · rename_i tasks
      exact .busy here tasks
    · rename_i idle
      exact .drained here (Int.not_lt.mp idle)
  · cases moved
    split
    · rename_i cleaning
      exact .waits here cleaning
    · rename_i recovered
      exact .givesUp here (Bool.eq_false_iff.mpr recovered)
  · cases moved; exact .destroyed here
  · cases moved; exact .deletes here
  · cases moved; exact .deleted here
  · cases moved; exact .removed here
  · split at moved
    · rename_i queue
      cases moved
      exact .received _ here queue
    · cases moved
  · split at moved
    · rename_i room
      cases moved
      exact .requeued _ here room
    · cases moved
  · cases moved; exact .entered here
  · cases moved; exact .forwarded here
  · cases moved; exact .left here
  · cases moved

inductive Turn (s : WorkerPool) : Action → WorkerPool → Prop where
  | setTarget : Turn s (.setTarget target) (s.spawn (.settingTarget target))
  | runLambda : Turn s .runLambda (s.spawn (.receiving true))
  | getWorker : s.len .starting + s.len .running ≠ 0 → Turn s .getWorker (s.spawn (.receiving false))
  | moved : i < s.nextGo → s.lock = none ∨ (s.go i).pc.locks = false → Move s i t → Turn s (.go i) t
  | chose : i < s.nextGo → s.lock = none → (s.go i).pc = .choosing toBeRecover due → 0 < toBeRecover →
      (s.worker w).maps .cleaning = true →
      Turn s (.choose i w) (s.at i (.recovering w toBeRecover ((s.due due).erase w)))
  | failed : i < s.nextGo → (s.go i).pc = .creating w true ∨ (s.go i).pc = .deleting w true →
      Turn s (.fail i err) {s with fault := some err}

theorem step_turn (moved : step s action = some t) : s.fault = none ∧ Turn s action t := by
  unfold step at moved
  split at moved
  · cases moved
  · rename_i sound
    refine ⟨Classical.byContradiction sound,?_⟩
    cases action with
    | setTarget target => cases moved; exact .setTarget
    | runLambda => cases moved; exact .runLambda
    | getWorker =>
        dsimp only at moved
        split at moved
        · cases moved
        · rename_i some
          cases moved
          exact .getWorker some
    | go i =>
        dsimp only at moved
        split at moved
        · rename_i free
          exact .moved free.1 free.2 (advance_move moved)
        · cases moved
    | choose i w =>
        dsimp only at moved
        split at moved
        · rename_i known
          unfold WorkerPool.choose at moved
          split at moved
          · rename_i here
            split at moved
            · rename_i produced
              cases moved
              exact .chose known produced.1 here produced.2.1 produced.2.2
            · cases moved
          · cases moved
        · cases moved
    | fail i err =>
        dsimp only at moved
        split at moved
        · rename_i known
          unfold WorkerPool.fail at moved
          split at moved
          · rename_i here
            cases moved
            exact .failed known (.inl here)
          · rename_i here
            cases moved
            exact .failed known (.inr here)
          · cases moved
        · cases moved

theorem put_worker (s : WorkerPool) (w v : Nat) (x : Worker) :
    (s.put w x).worker v = if v = w then x else s.worker v := Function.update_apply s.worker w x v

theorem shift_maps {x : Worker} (present : (x.shift before after).maps state = true) :
    state = after ∨ state ≠ before ∧ x.maps state = true := by
  change (if state = after then true else if state = before then false else x.maps state) = true at present
  split at present
  · rename_i new
    exact .inl new
  · split at present
    · cases present
    · rename_i old
      exact .inr ⟨old,present⟩

theorem move_frame (move : Move s i t) (other : j ≠ i) (apart : j < s.nextGo ∨ t.nextGo ≤ j) : t.go j = s.go j := by
  cases move with
  | started | cleaned | destroyed =>
      have old : j ≠ s.nextGo := by
        rcases apart with below | beyond
        · exact Nat.ne_of_lt below
        · exact Nat.ne_of_gt beyond
      simp [WorkerPool.startNewWorker,WorkerPool.cleanWorker,WorkerPool.detroyWorker,WorkerPool.spawn,WorkerPool.at,
        WorkerPool.put,old,other]
  | allStarted | noLack | allRecovered => simp [WorkerPool.back,other]
  | recovered => simp [WorkerPool.recoverWorker,other]
  | _ => simp [WorkerPool.at,WorkerPool.put,other]

theorem move_nextGo (move : Move s i t) : s.nextGo ≤ t.nextGo := by
  cases move with
  | started | cleaned | destroyed => exact Nat.le_succ _
  | _ => exact Nat.le_refl _

end OpenLambda.Boss
