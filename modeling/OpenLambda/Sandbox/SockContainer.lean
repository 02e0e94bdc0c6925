import OpenLambda.Sandbox.Meta
import OpenLambda.Sandbox.SafeSandbox

namespace OpenLambda.SockContainer
open SafeWrapper SandboxEventType

-- The configuration the containers read: Limits.Mem_mb, Mem_pool_mb and
-- Features.Downsize_paused_mem. Features.Reuse_cgroups is off throughout, so a
-- cgroup belongs to the one container that got it and is removed with it.
structure Conf where
  memMB : Int
  totalMB : Int
  downsizePausedMem : Bool
  deriving DecidableEq, Repr

-- What follows a run of decCgRefCount: the wrapper marks the sandbox dead with
-- this text; or Create gives up on a container it had not wrapped yet; or the
-- release of `child` goes on, which had called childExit on this container.
inductive After where
  | destroy (text : String)
  | discard
  | childExit (child : Nat)
  deriving DecidableEq, Repr

inductive MemUse where
  | create
  | pauseCredit
  | unpauseDebit
  | releaseCredit (after : After)
  deriving DecidableEq, Repr

-- Where the goroutine is that works on a container. Methods of a wrapped
-- container run under its mutex, which is free exactly at `idle`; a container
-- that Create has not returned yet is known to its creator only.
inductive Op where
  | memSend (mb : Int) (use : MemUse)
  | memWait (mb : Int) (use : MemUse)
  | acquireCg
  | setup
  | startProc
  | forkWait
  | forked
  | connect
  | idle
  | pauseEnd
  | raise (mb : Int)
  | thaw
  | forking (child : Nat)
  | freeze (after : After)
  | decRef (after : After)
  | kill (after : After)
  | removeRoot (after : After)
  | exitCall (after : After)
  | exitWait (after : After)
  | returned (after : After)
  | discarded
  deriving DecidableEq, Repr

-- `cg` is the memLimitMB of the container's cgroup, none before GetCg;
-- `createParent` is the argument of Create, `parent` the field it sets once the
-- fork has succeeded. `task` is the evictor goroutine inside the mutex, if any.
-- The fields after it record history and are read by no step: whether Destroy
-- has dropped the container's own reference, how often each resource was
-- released, how often childExit was called on the parent, how many forks failed
-- after they had taken a reference, and the events sent to listeners.
structure Box where
  memLimitMB : Int
  createParent : Option Nat
  cg : Option Int
  cgRefCount : Int
  parent : Option Nat
  children : List Nat
  safe : SafeSandbox
  op : Op
  task : Option Nat
  destroyed : Bool
  cgReleased : Nat
  memReleased : Nat
  rootReleased : Nat
  exitCalls : Nat
  forkLeaks : Nat
  hist : List SandboxEventType
  deriving DecidableEq, Repr

def newBox (conf : Conf) (createParent : Option Nat) (memLimitMB : Int) : Box where
  memLimitMB := Common.orDefault memLimitMB conf.memMB
  createParent := createParent
  cg := none
  cgRefCount := 1
  parent := none
  children := []
  safe := newSafeSandbox
  op := .memSend (-Common.orDefault memLimitMB conf.memMB) .create
  task := none
  destroyed := false
  cgReleased := 0
  memReleased := 0
  rootReleased := 0
  exitCalls := 0
  forkLeaks := 0
  hist := []

theorem newBox_filled (limits : Common.LimitsConfig) (given : Sandbox.SandboxMeta) (same : conf.memMB = limits.memMb.toInt)
    (parent : Option Nat) : (newBox conf parent given.memLimitMB.toInt).memLimitMB =
      (Sandbox.fillMetaDefaults limits (some given)).memLimitMB.toInt := by
  rw [Sandbox.filled_memLimitMB,← same]
  rfl

def Box.getMemLimitMB (b : Box) : Int := b.cg.getD 0

def Box.unlock (b : Box) : Box := {b with op := .idle,task := none}

def forkFailed : String := "Fork from parent Sandbox failed"

def createError (err : String) : String := "error " ++ err ++ " occured before Create completed"

def Box.failCreate (b : Box) (err : String) : Box :=
  {b with op := .freeze (.destroy (explicitlyKilled b.safe (createError err)))}

-- One step of one container that involves no other party. Outcomes of system
-- calls are part of the action (`none` is a nil error), as is the memory in use.
inductive Local where
  | getCg
  | setup (err : Option String)
  | setParent
  | freshProc (err : Option String)
  | connect (err : Option String)
  | pause (usageMB : Nat) (err : Option String)
  | pauseEnd
  | unpause
  | raise
  | thaw (err : Option String)
  | destroy (reason : String)
  | destroyIfPaused (reason : String)
  | freeze (err : Option String)
  | decRef
  | kill
  | removeRoot
  | finish
  deriving DecidableEq, Repr

inductive Panic where
  | destroy (err : String)
  | decCgRefCount (text : String)
  | fork (text : String)
  | memTask (text : String)
  | updateState (text : String)
  | doEvictions (text : String)
  deriving DecidableEq, Repr

structure Outcome where
  box : Box
  events : List SandboxEventType
  fault : Option Panic
  deriving DecidableEq, Repr

def Box.goto (b : Box) (op : Op) : Option Outcome := some ⟨{b with op := op},[],none⟩

def Box.downsize (conf : Conf) (b : Box) (usageMB : Nat) : Box :=
  if conf.downsizePausedMem then
    let oldLimit := b.getMemLimitMB
    let newLimit : Int := usageMB + 1
    if newLimit < oldLimit then {b with cg := some newLimit,op := .memSend (oldLimit - newLimit) .pauseCredit}
    else {b with op := .pauseEnd}
  else {b with op := .pauseEnd}

def Box.pause (conf : Conf) (b : Box) (usageMB : Nat) (err : Option String) : Option Outcome :=
  match b.safe.dead with
  | some _ => some ⟨b,[],none⟩
  | none =>
      if b.safe.paused then some ⟨b,[],none⟩
      else match err with
        | some e => b.goto (.freeze (.destroy (autoKilled "Pause" e)))
        | none => some ⟨b.downsize conf usageMB,[],none⟩

def Box.unpause (conf : Conf) (b : Box) : Option Outcome :=
  match b.safe.dead with
  | some _ => some ⟨b,[],none⟩
  | none =>
      if b.safe.paused then
        some ⟨{b with op := if conf.downsizePausedMem then .memSend (b.getMemLimitMB - conf.memMB) .unpauseDebit else .thaw},
          event b.safe evUnpause,none⟩
      else some ⟨b,[],none⟩

def Box.destroy (b : Box) (reason : String) : Option Outcome :=
  match b.safe.dead with
  | some _ => some ⟨b,[],none⟩
  | none => b.goto (.freeze (.destroy (explicitlyKilled b.safe reason)))

def Box.destroyIfPaused (b : Box) (reason : String) : Option Outcome :=
  match b.safe.dead with
  | some _ => some ⟨b,[],none⟩
  | none =>
      if b.safe.paused then b.goto (.freeze (.destroy (idleKilled reason)))
      else some ⟨b,event b.safe evDestroyIgnored,none⟩

-- The container's own reference goes with its Destroy, not with a childExit.
def After.own : After → Bool
  | .childExit _ => false
  | _ => true

def Box.decCgRefCount (b : Box) (after : After) : Outcome :=
  let newCount := b.cgRefCount - 1
  let b := {b with cgRefCount := newCount,destroyed := b.destroyed || after.own}
  if newCount < 0 then ⟨b,[],some (.decCgRefCount "cgRefCount should not be able to go negative")⟩
  else if newCount = 0 then ⟨{b with op := .kill after},[],none⟩
  else ⟨{b with op := .returned after},[],none⟩

def Box.killAndRelease (b : Box) (after : After) : Box :=
  match b.cg with
  | some limit => {b with cgReleased := b.cgReleased + 1,op := .memSend limit (.releaseCredit after)}
  | none => {b with op := .removeRoot after}

def Box.removeRoot (b : Box) (after : After) : Box :=
  {b with rootReleased := b.rootReleased + 1,op := if b.parent = none then .returned after else .exitCall after}

-- Callers hold a sandbox only after Create has returned it, that is after
-- startNotifyingListeners; they enter when the mutex is free.
def Box.enterable (b : Box) : Bool := b.op == .idle && b.safe.listening

def localStep (conf : Conf) (b : Box) : Local → Option Outcome
  | .getCg => match b.op with
      | .acquireCg => some ⟨{b with cg := some b.memLimitMB,op := .setup},[],none⟩
      | _ => none
  | .setup err => match b.op,err with
      | .setup,none => b.goto .startProc
      | .setup,some _ => b.goto (.freeze .discard)
      | _,_ => none
  | .freshProc err => match b.op,b.createParent,err with
      | .startProc,none,none => b.goto .connect
      | .startProc,none,some e => some ⟨b.failCreate e,[],none⟩
      | _,_,_ => none
  | .setParent => match b.op with
      | .forked => some ⟨{b with parent := b.createParent,op := .connect},[],none⟩
      | _ => none
  | .connect err => match b.op,err with
      | .connect,none =>
          let (safe,events) := startNotifyingListeners b.safe
          some ⟨({b with safe := safe}).unlock,events,none⟩
      | .connect,some e => some ⟨b.failCreate e,[],none⟩
      | _,_ => none
  | .pause usageMB err => if b.enterable then b.pause conf usageMB err else none
  | .pauseEnd => match b.op with
      | .pauseEnd =>
          let (safe,events) := pauseDone b.safe
          some ⟨({b with safe := safe}).unlock,events,none⟩
      | _ => none
  | .unpause => if b.enterable then b.unpause conf else none
  | .raise => match b.op with
      | .raise _ => some ⟨{b with cg := some conf.memMB,op := .thaw},[],none⟩
      | _ => none
  | .thaw err => match b.op,err with
      | .thaw,none => some ⟨({b with safe := unpauseDone b.safe}).unlock,[],none⟩
      | .thaw,some e => b.goto (.freeze (.destroy (autoKilled "Unpause" e)))
      | _,_ => none
  | .destroy reason => if b.enterable then b.destroy reason else none
  | .destroyIfPaused reason => if b.enterable then b.destroyIfPaused reason else none
  | .freeze err => match b.op,err with
      | .freeze after,none => b.goto (.decRef after)
      | .freeze _,some e => some ⟨b,[],some (.destroy e)⟩
      | _,_ => none
  | .decRef => match b.op with
      | .decRef after => some (b.decCgRefCount after)
      | _ => none
  | .kill => match b.op with
      | .kill after => some ⟨b.killAndRelease after,[],none⟩
      | _ => none
  | .removeRoot => match b.op with
      | .removeRoot after => some ⟨b.removeRoot after,[],none⟩
      | _ => none
  | .finish => match b.op with
      | .returned (.destroy text) =>
          let (safe,events) := died b.safe text
          some ⟨({b with safe := safe}).unlock,events,none⟩
      | .returned .discard => b.goto .discarded
      | _ => none

def Box.resume (b : Box) : Box :=
  match b.op with
  | .memWait _ .create => {b with op := .acquireCg}
  | .memWait _ .pauseCredit => {b with op := .pauseEnd}
  | .memWait mb .unpauseDebit => {b with op := .raise mb}
  | .memWait _ (.releaseCredit after) => {b with memReleased := b.memReleased + 1,op := .removeRoot after}
  | _ => b

-- safeSandbox.fork and SOCKContainer.fork up to the point where processes are
-- started. An error there leaves no trace.
def Box.forkEnter (p : Box) (child usageMB : Nat) : Except String Box :=
  match p.safe.dead with
  | some text => .error text
  | none =>
      let spareMB := p.getMemLimitMB - usageMB
      if spareMB < 3 then
        .error ("only " ++ toString spareMB ++ "MB of spare memory in parent, rejecting fork request (need at least 3MB)")
      else .ok {p with children := p.children.insert child,cgRefCount := p.cgRefCount + 1,op := .forking child}

-- The rest of fork: GetPIDs, opening the root dir and cgroup.procs, forkRequest
-- or AddPid fails, or the child runs. On an error fork just returns.
def Box.forkLeave (p : Box) (err : Option String) : Box × List SandboxEventType :=
  match err with
  | some _ => (({p with forkLeaks := p.forkLeaks + 1}).unlock,[])
  | none => (p.unlock,event p.safe evFork)

def Box.childExit (p : Box) (child : Nat) : Box :=
  {p with children := p.children.erase child,op := .decRef (.childExit child)}

inductive Goto (b : Box) : Op → Prop where
  | setupDone : b.op = .setup → Goto b .startProc
  | setupFailed : b.op = .setup → Goto b (.freeze .discard)
  | freshDone : b.op = .startProc → Goto b .connect
  | createFailed : b.op = .startProc ∨ b.op = .connect → Goto b (.freeze (.destroy text))
  | destroyed : b.op = .idle → b.safe.dead = none → Goto b (.freeze (.destroy text))
  | pauseKept : b.op = .idle → b.safe.dead = none → b.safe.listening = true → b.safe.paused = false → Goto b .pauseEnd
  | thawFailed : b.op = .thaw → Goto b (.freeze (.destroy text))
  | frozen : b.op = .freeze after → Goto b (.decRef after)
  | gone : b.op = .returned .discard → Goto b .discarded

inductive LocalStep (conf : Conf) (b : Box) : Outcome → Prop where
  | goto : Goto b op → LocalStep conf b ⟨{b with op := op},[],none⟩
  | ignored : b.op = .idle → LocalStep conf b ⟨b,[],none⟩
  | getCg : b.op = .acquireCg → LocalStep conf b ⟨{b with cg := some b.memLimitMB,op := .setup},[],none⟩
  | setParent : b.op = .forked → LocalStep conf b ⟨{b with parent := b.createParent,op := .connect},[],none⟩
  | connected : b.op = .connect →
      LocalStep conf b ⟨({b with safe := (startNotifyingListeners b.safe).1}).unlock,(startNotifyingListeners b.safe).2,none⟩
  | downsized : b.op = .idle → b.safe.dead = none → b.safe.listening = true → b.safe.paused = false →
      newLimit < b.getMemLimitMB → 0 < newLimit → LocalStep conf b
        ⟨{b with cg := some newLimit,op := .memSend (b.getMemLimitMB - newLimit) .pauseCredit},[],none⟩
  | paused : b.op = .pauseEnd → LocalStep conf b ⟨({b with safe := (pauseDone b.safe).1}).unlock,(pauseDone b.safe).2,none⟩
  | unpause : b.op = .idle → b.safe.dead = none → b.safe.listening = true → b.safe.paused = true →
      op = .memSend (b.getMemLimitMB - conf.memMB) .unpauseDebit ∨ op = .thaw →
      LocalStep conf b ⟨{b with op := op},event b.safe evUnpause,none⟩
  | raise : b.op = .raise mb → LocalStep conf b ⟨{b with cg := some conf.memMB,op := .thaw},[],none⟩
  | thawed : b.op = .thaw → LocalStep conf b ⟨({b with safe := unpauseDone b.safe}).unlock,[],none⟩
  | destroyIgnored : b.op = .idle → b.safe.dead = none → b.safe.paused = false →
      LocalStep conf b ⟨b,event b.safe evDestroyIgnored,none⟩
  | freezePanic : b.op = .freeze after → LocalStep conf b ⟨b,[],some (.destroy err)⟩
  | decRef : b.op = .decRef after → LocalStep conf b (b.decCgRefCount after)
  | kill : b.op = .kill after → LocalStep conf b ⟨b.killAndRelease after,[],none⟩
  | removeRoot : b.op = .removeRoot after → LocalStep conf b ⟨b.removeRoot after,[],none⟩
  | finish : b.op = .returned (.destroy text) →
      LocalStep conf b ⟨({b with safe := (died b.safe text).1}).unlock,(died b.safe text).2,none⟩

theorem enterable_parts {b : Box} (enter : b.enterable = true) : b.op = .idle ∧ b.safe.listening = true := by
  simpa [Box.enterable] using enter

theorem destroy_sound {b : Box} (idle : b.op = .idle) (ran : b.destroy reason = some out) : LocalStep conf b out := by
  unfold Box.destroy at ran
  split at ran
  · cases ran; exact .ignored idle
  · rename_i alive
    cases ran; exact .goto (.destroyed idle alive)

theorem destroyIfPaused_sound {b : Box} (idle : b.op = .idle) (ran : b.destroyIfPaused reason = some out) :
    LocalStep conf b out := by
  unfold Box.destroyIfPaused at ran
  split at ran
  · cases ran; exact .ignored idle
  · rename_i alive
    split at ran
    · cases ran; exact .goto (.destroyed idle alive)
    · rename_i running
      cases ran; exact .destroyIgnored idle alive (by simpa using running)

theorem pause_sound {b : Box} (enter : b.enterable = true) (ran : b.pause conf usageMB err = some out) :
    LocalStep conf b out := by
  obtain ⟨idle,heard⟩ := enterable_parts enter
  unfold Box.pause at ran
  split at ran
  · cases ran; exact .ignored idle
  · rename_i alive
    split at ran
    · cases ran; exact .ignored idle
    · rename_i running
      have running : b.safe.paused = false := by simpa using running
      split at ran
      · cases ran; exact .goto (.destroyed idle alive)
      · cases ran
        unfold Box.downsize
        dsimp only
        split
        · split
          · rename_i smaller
            exact .downsized idle alive heard running smaller (by omega)
          · exact .goto (.pauseKept idle alive heard running)
        · exact .goto (.pauseKept idle alive heard running)

theorem unpause_sound {b : Box} (enter : b.enterable = true) (ran : b.unpause conf = some out) :
    LocalStep conf b out := by
  obtain ⟨idle,heard⟩ := enterable_parts enter
  unfold Box.unpause at ran
  split at ran
  · cases ran; exact .ignored idle
  · rename_i alive
    split at ran
    · rename_i paused
      cases ran
      refine .unpause idle alive heard paused ?_
      split
      · exact .inl rfl
      · exact .inr rfl
    · cases ran; exact .ignored idle

theorem localStep_sound {b : Box} (ran : localStep conf b action = some out) : LocalStep conf b out := by
  cases action with
  | pause usageMB err =>
      simp only [localStep] at ran
      split at ran
      · exact pause_sound ‹_› ran
      · cases ran
  | unpause =>
      simp only [localStep] at ran
      split at ran
      · exact unpause_sound ‹_› ran
      · cases ran
  | destroy reason =>
      simp only [localStep] at ran
      split at ran
      · exact destroy_sound (enterable_parts ‹_›).1 ran
      · cases ran
  | destroyIfPaused reason =>
      simp only [localStep] at ran
      split at ran
      · exact destroyIfPaused_sound (enterable_parts ‹_›).1 ran
      · cases ran
  | getCg =>
      simp only [localStep] at ran
      split at ran <;> cases ran
      exact .getCg ‹_›
  | setup err =>
      simp only [localStep] at ran
      split at ran <;> cases ran
      · exact .goto (.setupDone ‹_›)
      · exact .goto (.setupFailed ‹_›)
  | freshProc err =>
      simp only [localStep] at ran
      split at ran <;> cases ran
      · exact .goto (.freshDone ‹_›)
      · exact .goto (.createFailed (.inl ‹_›))
  | setParent =>
      simp only [localStep] at ran
      split at ran <;> cases ran
      exact .setParent ‹_›
  | connect err =>
      simp only [localStep] at ran
      split at ran <;> cases ran
      · exact .connected ‹_›
      · exact .goto (.createFailed (.inr ‹_›))
  | pauseEnd =>
      simp only [localStep] at ran
      split at ran <;> cases ran
      exact .paused ‹_›
  | raise =>
      simp only [localStep] at ran
      split at ran <;> cases ran
      exact .raise ‹_›
  | thaw err =>
      simp only [localStep] at ran
      split at ran <;> cases ran
      · exact .thawed ‹_›
      · exact .goto (.thawFailed ‹_›)
  | freeze err =>
      simp only [localStep] at ran
      split at ran <;> cases ran
      · exact .goto (.frozen ‹_›)
      · exact .freezePanic ‹_›
  | decRef =>
      simp only [localStep] at ran
      split at ran <;> cases ran
      exact .decRef ‹_›
  | kill =>
      simp only [localStep] at ran
      split at ran <;> cases ran
      exact .kill ‹_›
  | removeRoot =>
      simp only [localStep] at ran
      split at ran <;> cases ran
      exact .removeRoot ‹_›
  | finish =>
      simp only [localStep] at ran
      split at ran <;> cases ran
      · exact .finish ‹_›
      · exact .goto (.gone ‹_›)

end OpenLambda.SockContainer
