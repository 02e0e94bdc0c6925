import OpenLambda.Foundation.Runs
import OpenLambda.Sandbox.Evictor
import OpenLambda.Sandbox.MemPool
import OpenLambda.Sandbox.SockStages

namespace OpenLambda.SockSystem
open Foundation.Runs SafeWrapper SandboxEventType SockContainer

inductive Client where
  | container (id : Nat)
  | evictor
  deriving DecidableEq, Repr

-- SOCKEvictor.Run: blocked in nextEvent(true), emptying the channel, waiting
-- for the answer to getAvailableMB, or with the answer in hand.
inductive EvictorPc where
  | waiting
  | draining
  | probing
  | deciding (availableMB : Int)
  deriving DecidableEq, Repr

structure EvictTask where
  sb : Nat
  force : Bool
  started : Bool
  deriving DecidableEq, Repr

-- One SOCKPool with its containers, its MemPool and its SOCKEvictor. Containers
-- are numbered in the order of Create. `lastTask` is history: the goroutine the
-- evictor started last for a sandbox. A panic stops the worker in `fault`.
structure System where
  nextId : Nat
  box : Nat → Box
  memRequests : List (MemPool.MemReq Client)
  pool : MemPool.Pool Client
  events : List (SandboxEventType × Nat)
  evictor : Evictor.Trace
  evictorPc : EvictorPc
  nextTask : Nat
  task : Nat → EvictTask
  lastTask : Nat → Nat
  fault : Option Panic

def init (conf : Conf) : System where
  nextId := 0
  box := fun _ => newBox conf none 0
  memRequests := []
  pool := MemPool.newMemPool conf.totalMB
  events := []
  evictor := Evictor.newTrace
  evictorPc := .waiting
  nextTask := 0
  task := fun _ => ⟨0,false,false⟩
  lastTask := fun _ => 0
  fault := none

def memRequestsCap : Nat := 32
def eventsCap : Nat := 64

inductive Action where
  | create (parent : Option Nat) (memLimitMB : Int)
  | act (id : Nat) (action : Local)
  | memSend (id : Nat)
  | memReceive
  | memServe
  | forkEnter (id usageMB : Nat)
  | forkLeave (id : Nat) (err : Option String)
  | exitCall (id : Nat)
  | exitReturn (id : Nat)
  | evictTask (id : Nat)
  | evictorUpdate
  | evictorProbe
  | evictorDecide
  deriving DecidableEq, Repr

def System.put (s : System) (id : Nat) (b : Box) : System := {s with box := Function.update s.box id b}

-- Container `id` continues as `b` after its listeners were told `events`. A
-- send to the evictor's channel blocks while the channel is full.
def System.emitted (s : System) (id : Nat) (b : Box) (events : List SandboxEventType) : System :=
  {s with
    box := Function.update s.box id {b with hist := b.hist ++ events}
    events := s.events ++ events.map fun ev => (ev,id)}

def System.emit (s : System) (id : Nat) (b : Box) (events : List SandboxEventType) : Option System :=
  if events = [] ∨ s.events.length < eventsCap then some (s.emitted id b events) else none

def System.create (conf : Conf) (s : System) (parent : Option Nat) (memLimitMB : Int) : Option System :=
  let known := match parent with
    | none => true
    | some p => decide (p < s.nextId) && (s.box p).safe.listening
  if known then
    some {s with box := Function.update s.box s.nextId (newBox conf parent memLimitMB),nextId := s.nextId + 1}
  else none

def System.act (conf : Conf) (s : System) (id : Nat) (action : Local) : Option System :=
  if id < s.nextId then
    match localStep conf (s.box id) action with
    | some out => (s.emit id out.box out.events).map fun t => {t with fault := out.fault}
    | none => none
  else none

def System.memSend (s : System) (id : Nat) : Option System :=
  if id < s.nextId ∧ s.memRequests.length < memRequestsCap then
    match (s.box id).op with
    | .memSend mb use =>
        some {s.put id {s.box id with op := .memWait mb use} with memRequests := s.memRequests ++ [⟨mb,.container id⟩]}
    | _ => none
  else none

def System.answer (s : System) (answer : MemPool.Answer Client) : System :=
  match answer.req.resp with
  | .container id => s.put id (s.box id).resume
  | .evictor => {s with evictorPc := .deciding answer.availableMB}

def System.answers (s : System) (answers : List (MemPool.Answer Client)) : System := answers.foldl System.answer s

def System.memReceive (s : System) : Option System :=
  match s.pool.phase,s.memRequests with
  | .receiving,req :: rest =>
      match MemPool.receive s.pool req with
      | .error message => some {s with fault := some (.memTask message)}
      | .ok (pool,out) => some ({s with pool := pool,memRequests := rest}.answers out)
  | _,_ => none

def System.memServe (s : System) : Option System :=
  match s.pool.phase with
  | .serving => some ({s with pool := (MemPool.serve s.pool).1}.answers (MemPool.serve s.pool).2)
  | .receiving => none

def System.forkEnter (s : System) (id usageMB : Nat) : Option System :=
  match (s.box id).op,(s.box id).createParent with
  | .startProc,some p =>
      if id < s.nextId ∧ (s.box p).op = .idle then
        match (s.box p).forkEnter id usageMB with
        | .error _ => some (s.put id ((s.box id).failCreate forkFailed))
        | .ok parent =>
            some {(s.put p parent).put id {s.box id with op := .forkWait} with
              fault := if parent.cgRefCount = 0 then some (.fork "cgRefCount was already 0") else none}
      else none
  | _,_ => none

def System.forkLeave (s : System) (id : Nat) (err : Option String) : Option System :=
  match (s.box id).op,(s.box id).createParent with
  | .forkWait,some p =>
      if id < s.nextId ∧ (s.box p).op = .forking id then
        let (parent,events) := (s.box p).forkLeave err
        let child := match err with
          | some _ => (s.box id).failCreate forkFailed
          | none => {s.box id with op := .forked}
        (s.emit p parent events).map fun t => t.put id child
      else none
  | _,_ => none

def System.exitCall (s : System) (id : Nat) : Option System :=
  match (s.box id).op,(s.box id).parent with
  | .exitCall after,some p =>
      if id < s.nextId ∧ (s.box p).op = .idle then
        some ((s.put p ((s.box p).childExit id)).put id
          {s.box id with exitCalls := (s.box id).exitCalls + 1,op := .exitWait after})
      else none
  | _,_ => none

def System.exitReturn (s : System) (id : Nat) : Option System :=
  match (s.box id).op with
  | .returned (.childExit child) =>
      match (s.box child).op with
      | .exitWait after =>
          if id < s.nextId ∧ (s.box child).parent = some id then
            (s.emit id (s.box id).unlock (childExitDone (s.box id).safe)).map fun t =>
              t.put child {s.box child with op := .returned after}
          else none
      | _ => none
  | _ => none

-- A goroutine of evictFront gets the mutex of its sandbox. It is over when it
-- leaves the mutex again, at once if there is nothing to do.
def System.evictTask (s : System) (id : Nat) : Option System :=
  let task := s.task id
  let b := s.box task.sb
  if id < s.nextTask ∧ task.started = false ∧ task.sb < s.nextId ∧ b.enterable then
    match if task.force then b.destroy "forced eviction" else b.destroyIfPaused "idle eviction" with
    | some out =>
        let entered := if out.box.op = .idle then out.box else {out.box with task := some id}
        (s.emit task.sb entered out.events).map fun t =>
          {t with fault := out.fault,task := Function.update t.task id {task with started := true}}
    | none => none
  else none

def System.evictorUpdate (s : System) : Option System :=
  match s.evictorPc,s.events with
  | .waiting,(ev,id) :: rest | .draining,(ev,id) :: rest =>
      match s.evictor.update ev id with
      | .error message => some {s with fault := some (.updateState message)}
      | .ok next => some {s with evictor := next,events := rest,evictorPc := .draining}
  | _,_ => none

def System.evictorProbe (s : System) : Option System :=
  match s.evictorPc,s.events with
  | .draining,[] =>
      if s.memRequests.length < memRequestsCap then
        some {s with memRequests := s.memRequests ++ [⟨0,.evictor⟩],evictorPc := .probing}
      else none
  | _,_ => none

def System.start (s : System) (work : Nat × Bool) : System :=
  {s with
    task := Function.update s.task s.nextTask ⟨work.1,work.2,false⟩
    lastTask := Function.update s.lastTask work.1 s.nextTask
    nextTask := s.nextTask + 1}

def System.evictorDecide (conf : Conf) (s : System) : Option System :=
  match s.evictorPc with
  | .deciding availableMB =>
      match s.evictor.evict conf.memMB conf.totalMB availableMB with
      | .error message => some {s with fault := some (.doEvictions message)}
      | .ok (next,tasks) => some (tasks.foldl System.start {s with evictor := next,evictorPc := .waiting})
  | _ => none

def step (conf : Conf) (s : System) (action : Action) : Option System :=
  if s.fault = none then
    match action with
    | .create parent memLimitMB => s.create conf parent memLimitMB
    | .act id action => s.act conf id action
    | .memSend id => s.memSend id
    | .memReceive => s.memReceive
    | .memServe => s.memServe
    | .forkEnter id usageMB => s.forkEnter id usageMB
    | .forkLeave id err => s.forkLeave id err
    | .exitCall id => s.exitCall id
    | .exitReturn id => s.exitReturn id
    | .evictTask id => s.evictTask id
    | .evictorUpdate => s.evictorUpdate
    | .evictorProbe => s.evictorProbe
    | .evictorDecide => s.evictorDecide conf
  else none

inductive Entry (s : System) (id : Nat) (out : Outcome) : Option Nat → (Nat → EvictTask) → Prop where
  | caller : Entry s id out out.box.task s.task
  | nothing : n < s.nextTask → (s.task n).started = false → (s.task n).sb = id → (s.box id).enterable = true →
      out.box = s.box id →
      (s.box id).safe.dead ≠ none ∨ out.events = event (s.box id).safe evDestroyIgnored →
      Entry s id out out.box.task (Function.update s.task n {s.task n with started := true})
  | inside : n < s.nextTask → (s.task n).started = false → (s.task n).sb = id → (s.box id).enterable = true →
      out.box = {s.box id with op := .freeze (.destroy text)} →
      Entry s id out (some n) (Function.update s.task n {s.task n with started := true})

-- Everything a step can do, one case for each effect. Of the action it is
-- recorded that a fork fails late only when the schedule says so.
inductive Moves (conf : Conf) (s : System) (action : Action) : System → Prop where
  | create : (∀ p, parent = some p → p < s.nextId ∧ (s.box p).safe.listening = true) →
      Moves conf s action {s with box := Function.update s.box s.nextId (newBox conf parent memLimitMB),nextId := s.nextId + 1}
  | act {id : Nat} : id < s.nextId → LocalStep conf (s.box id) out → Entry s id out mark tasks →
      Moves conf s action {s.emitted id {out.box with task := mark} out.events with fault := out.fault,task := tasks}
  | memSend {id : Nat} : id < s.nextId → (s.box id).op = .memSend mb use →
      Moves conf s action {s.put id {s.box id with op := .memWait mb use} with memRequests := s.memRequests ++ [⟨mb,.container id⟩]}
  | memPanic : s.memRequests = req :: rest → MemPool.receive s.pool req = .error message →
      Moves conf s action {s with fault := some (.memTask message)}
  | memReleased : s.memRequests = req :: rest → 0 ≤ req.mb →
      Moves conf s action ({s with
        memRequests := rest
        pool := {s.pool with availableMB := s.pool.availableMB + req.mb,phase := .serving}}.answer
          ⟨req,s.pool.availableMB + req.mb⟩)
  | memQueued : s.memRequests = req :: rest → req.mb < 0 →
      Moves conf s action {s with
        memRequests := rest
        pool := {s.pool with memRequestsWaiting := s.pool.memRequestsWaiting ++ [req],phase := .serving}}
  | memGranted : s.pool.memRequestsWaiting = front :: rest → 0 ≤ s.pool.availableMB + front.mb →
      Moves conf s action ({s with
        pool := {s.pool with
          availableMB := s.pool.availableMB + front.mb
          memRequestsWaiting := rest
          phase := .receiving}}.answer ⟨front,s.pool.availableMB + front.mb⟩)
  | memKept : Moves conf s action {s with pool := {s.pool with phase := .receiving}}
  | forkRefused {id : Nat} : id < s.nextId → (s.box id).op = .startProc →
      Moves conf s action (s.put id ((s.box id).failCreate forkFailed))
  | forkEntered {id : Nat} : id < s.nextId → (s.box id).op = .startProc → (s.box id).createParent = some p →
      (s.box p).op = .idle → (s.box p).forkEnter id usageMB = .ok parent →
      Moves conf s action {(s.put p parent).put id {s.box id with op := .forkWait} with
        fault := if parent.cgRefCount = 0 then some (.fork "cgRefCount was already 0") else none}
  | forkFailed {id : Nat} : action = .forkLeave id (some err) → id < s.nextId → (s.box id).op = .forkWait → (s.box id).createParent = some p →
      (s.box p).op = .forking id →
      Moves conf s action ((s.emitted p ((s.box p).forkLeave (some err)).1 []).put id ((s.box id).failCreate forkFailed))
  | forkDone {id : Nat} : id < s.nextId → (s.box id).op = .forkWait → (s.box id).createParent = some p →
      (s.box p).op = .forking id →
      Moves conf s action ((s.emitted p (s.box p).unlock (event (s.box p).safe evFork)).put id {s.box id with op := .forked})
  | exitCall {id : Nat} : id < s.nextId → (s.box id).op = .exitCall after → (s.box id).parent = some p → (s.box p).op = .idle →
      Moves conf s action ((s.put p ((s.box p).childExit id)).put id
        {s.box id with exitCalls := (s.box id).exitCalls + 1,op := .exitWait after})
  | exitReturn {id : Nat} : id < s.nextId → (s.box id).op = .returned (.childExit child) → (s.box child).op = .exitWait after →
      (s.box child).parent = some id →
      Moves conf s action ((s.emitted id (s.box id).unlock (childExitDone (s.box id).safe)).put child
        {s.box child with op := .returned after})
  | updatePanic {id : Nat} : s.events = (ev,id) :: rest → s.evictor.update ev id = .error message →
      Moves conf s action {s with fault := some (.updateState message)}
  | update {id : Nat} : s.evictorPc = .waiting ∨ s.evictorPc = .draining → s.events = (ev,id) :: rest → s.evictor.update ev id = .ok next →
      Moves conf s action {s with evictor := next,events := rest,evictorPc := .draining}
  | probe : s.evictorPc = .draining →
      Moves conf s action {s with memRequests := s.memRequests ++ [⟨0,.evictor⟩],evictorPc := .probing}
  | decidePanic : s.evictor.evict conf.memMB conf.totalMB availableMB = .error message →
      Moves conf s action {s with fault := some (.doEvictions message)}
  | decide : s.evictorPc = .deciding availableMB → s.evictor.evict conf.memMB conf.totalMB availableMB = .ok (next,tasks) →
      Moves conf s action (tasks.foldl System.start {s with evictor := next,evictorPc := .waiting})

theorem emit_parts {s : System} {id : Nat} (ran : s.emit id b events = some t) : t = s.emitted id b events := by
  unfold System.emit at ran
  split at ran <;> cases ran
  rfl

theorem create_moves {s : System} (ran : s.create conf parent memLimitMB = some t) : Moves conf s action t := by
  unfold System.create at ran
  cases parent with
  | none =>
      cases ran
      exact .create (by simp)
  | some p =>
      dsimp only at ran
      split at ran
      · rename_i known
        cases ran
        refine .create fun q same => ?_
        cases same
        simpa using known
      · cases ran

theorem act_moves {s : System} {id : Nat} (ran : s.act conf id own = some t) : Moves conf s action t := by
  unfold System.act at ran
  split at ran
  · rename_i within
    split at ran
    · rename_i out stepped
      obtain ⟨middle,emitted,rfl⟩ := Option.map_eq_some_iff.mp ran
      rw [emit_parts emitted]
      exact .act within (localStep_sound stepped) .caller
    · cases ran
  · cases ran

theorem memSend_moves {s : System} {id : Nat} (ran : s.memSend id = some t) : Moves conf s action t := by
  unfold System.memSend at ran
  split at ran
  · rename_i guard
    split at ran <;> cases ran
    exact .memSend guard.1 ‹_›
  · cases ran

theorem memReceive_moves {s : System} (ran : s.memReceive = some t) : Moves conf s action t := by
  unfold System.memReceive at ran
  split at ran
  · rename_i waiting
    split at ran
    · cases ran
      exact .memPanic waiting ‹_›
    · rename_i received
      cases ran
      obtain ⟨_,⟨release,rfl,rfl⟩ | ⟨acquire,rfl,rfl⟩⟩ := MemPool.receive_parts received
      · exact .memReleased waiting release
      · exact .memQueued waiting acquire
  · cases ran

theorem memServe_moves {s : System} (ran : s.memServe = some t) : Moves conf s action t := by
  unfold System.memServe at ran
  split at ran <;> cases ran
  rcases MemPool.serve_parts s.pool with ⟨front,rest,waiting,fits,served⟩ | ⟨_,served⟩
  · rw [served]
    exact .memGranted waiting fits
  · rw [served]
    exact .memKept

theorem forkEnter_moves {s : System} {id : Nat} (ran : s.forkEnter id usageMB = some t) : Moves conf s action t := by
  unfold System.forkEnter at ran
  split at ran
  · rename_i p here parent
    split at ran
    · rename_i guard
      split at ran <;> cases ran
      · exact .forkRefused guard.1 here
      · exact .forkEntered guard.1 here parent guard.2 ‹_›
    · cases ran
  · cases ran

theorem forkLeave_moves {s : System} {id : Nat} (ran : s.forkLeave id err = some t) :
    Moves conf s (.forkLeave id err) t := by
  unfold System.forkLeave at ran
  split at ran
  · rename_i p here parent
    split at ran
    · rename_i guard
      dsimp only at ran
      obtain ⟨middle,emitted,rfl⟩ := Option.map_eq_some_iff.mp ran
      rw [emit_parts emitted]
      cases err with
      | none => exact .forkDone guard.1 here parent guard.2
      | some text => exact .forkFailed rfl guard.1 here parent guard.2
    · cases ran
  · cases ran

theorem exitCall_moves {s : System} {id : Nat} (ran : s.exitCall id = some t) : Moves conf s action t := by
  unfold System.exitCall at ran
  split at ran
  · rename_i after p here parent
    split at ran <;> cases ran
    rename_i guard
    exact .exitCall guard.1 here parent guard.2
  · cases ran

theorem exitReturn_moves {s : System} {id : Nat} (ran : s.exitReturn id = some t) : Moves conf s action t := by
  unfold System.exitReturn at ran
  split at ran
  · rename_i child here
    split at ran
    · rename_i after waiting
      split at ran
      · rename_i guard
        obtain ⟨middle,emitted,rfl⟩ := Option.map_eq_some_iff.mp ran
        rw [emit_parts emitted]
        exact .exitReturn guard.1 here waiting guard.2
      · cases ran
    · cases ran
  · cases ran

theorem evict_parts {b : Box} {force : Bool} (ran : (if force then b.destroy reason else b.destroyIfPaused other) = some out) :
    (out.box = b ∧ (b.safe.dead ≠ none ∨ out.events = event b.safe evDestroyIgnored)) ∨
      ∃ text, out.box = {b with op := .freeze (.destroy text)} := by
  split at ran
  · unfold Box.destroy at ran
    split at ran <;> cases ran
    · exact .inl ⟨rfl,.inl (by simp [*])⟩
    · exact .inr ⟨_,rfl⟩
  · unfold Box.destroyIfPaused at ran
    split at ran
    · cases ran
      exact .inl ⟨rfl,.inl (by simp [*])⟩
    · split at ran <;> cases ran
      · exact .inr ⟨_,rfl⟩
      · exact .inl ⟨rfl,.inr rfl⟩

theorem evictTask_moves {s : System} {id : Nat} (ran : s.evictTask id = some t) : Moves conf s action t := by
  unfold System.evictTask at ran
  dsimp only at ran
  split at ran
  · rename_i guard
    obtain ⟨known,waiting,within,enter⟩ := guard
    have idle := (enterable_parts enter).1
    split at ran
    · rename_i out entered
      have moved : LocalStep conf (s.box (s.task id).sb) out := by
        split at entered
        · exact destroy_sound idle entered
        · exact destroyIfPaused_sound idle entered
      obtain ⟨middle,emitted,rfl⟩ := Option.map_eq_some_iff.mp ran
      rw [emit_parts emitted]
      rcases evict_parts entered with ⟨same,quiet⟩ | ⟨text,begun⟩
      · rw [if_pos (by rw [same]; exact idle)]
        exact .act within moved (.nothing known waiting rfl enter same quiet)
      · rw [if_neg (by simp [begun])]
        exact .act within moved (.inside known waiting rfl enter begun)
    · cases ran
  · cases ran

theorem evictorUpdate_moves {s : System} (ran : s.evictorUpdate = some t) : Moves conf s action t := by
  unfold System.evictorUpdate at ran
  split at ran
  · split at ran <;> cases ran
    · exact .updatePanic ‹_› ‹_›
    · exact .update (.inl ‹_›) ‹_› ‹_›
  · split at ran <;> cases ran
    · exact .updatePanic ‹_› ‹_›
    · exact .update (.inr ‹_›) ‹_› ‹_›
  · cases ran

theorem evictorProbe_moves {s : System} (ran : s.evictorProbe = some t) : Moves conf s action t := by
  unfold System.evictorProbe at ran
  split at ran
  · split at ran <;> cases ran
    exact .probe ‹_›
  · cases ran

theorem evictorDecide_moves {s : System} (ran : s.evictorDecide conf = some t) : Moves conf s action t := by
  unfold System.evictorDecide at ran
  split at ran
  · split at ran <;> cases ran
    · exact .decidePanic ‹_›
    · exact .decide ‹_› ‹_›
  · cases ran

theorem step_moves {s : System} (ran : step conf s action = some t) : s.fault = none ∧ Moves conf s action t := by
  unfold step at ran
  split at ran
  · rename_i running
    refine ⟨running,?_⟩
    cases action with
    | create => exact create_moves ran
    | act => exact act_moves ran
    | memSend => exact memSend_moves ran
    | memReceive => exact memReceive_moves ran
    | memServe => exact memServe_moves ran
    | forkEnter => exact forkEnter_moves ran
    | forkLeave => exact forkLeave_moves ran
    | exitCall => exact exitCall_moves ran
    | exitReturn => exact exitReturn_moves ran
    | evictTask => exact evictTask_moves ran
    | evictorUpdate => exact evictorUpdate_moves ran
    | evictorProbe => exact evictorProbe_moves ran
    | evictorDecide => exact evictorDecide_moves ran
  · cases ran

theorem reached_invariant (invariant : System → Prop)
    (preserved : ∀ s action t, invariant s → Moves conf s action t → invariant t) (start : invariant (init conf))
    (ran : run (step conf) (init conf) actions = some t) : invariant t :=
  run_preserves invariant (fun s action t valid moved => preserved s action t valid (step_moves moved).2) start ran

def bornFresh (id : Nat) : List Action :=
  [.memSend id,.memReceive,.memServe,.act id .getCg,.act id (.setup none),.act id (.freshProc none),.act id (.connect none)]

def forkBegins (id : Nat) : List Action :=
  [.memSend id,.memReceive,.memServe,.act id .getCg,.act id (.setup none),.forkEnter id 10]

def forkEnds (id : Nat) : List Action := [.forkLeave id none,.act id .setParent,.act id (.connect none)]

def destroyed (id : Nat) : List Action :=
  [.act id (.destroy "test"),.act id (.freeze none),.act id .decRef]

def released (id : Nat) : List Action :=
  [.act id .kill,.memSend id,.memReceive,.memServe,.act id .removeRoot]

def smallConf : Conf := ⟨50,500,true⟩

end OpenLambda.SockSystem
