import OpenLambda.Foundation.Runs
import OpenLambda.Lambda.Instance
import Mathlib.Logic.Function.Basic

namespace OpenLambda.Lambda
open Foundation.Runs

structure RollingAvg where
  size : Nat
  nums : List Int
  sum : Int
  avg : Int
  deriving DecidableEq, Repr

def newRollingAvg (size : Nat) : RollingAvg := ⟨size,[],0,0⟩

def RollingAvg.add (r : RollingAvg) (num : Int) : RollingAvg :=
  let nums := num :: r.nums
  let sum := r.sum + num
  if r.size < nums.length then
    let kept := nums.dropLast
    let left := sum - nums.getLast (by simp [nums])
    {r with nums := kept,sum := left,avg := left.tdiv kept.length}
  else {r with nums := nums,sum := sum,avg := sum.tdiv nums.length}

-- zygotes: is there a ZygoteProvider? cacheNs is Registry_cache_ms in ns.
structure Conf where
  zygotes : Bool
  cacheNs : Int
  deriving DecidableEq, Repr

inductive Cleanup where
  | path (dir : String)
  | wait (token : Nat)
  deriving DecidableEq, Repr

-- Where LambdaFunc.Task is. During a code switch `left` are the instances still
-- to be killed; `queueKill`, `queueCode`, `queueScaled` and `queueDying` are the
-- sends on cleanupChan; `signalling` records whether the scaling step comes next.
-- `dying` is the kill of the function, which ends with `awaiting` the cleanup task.
inductive TaskPc where
  | selecting
  | pulling (req : Invocation)
  | checking (req : Invocation) (oldCodeDir : String)
  | switching (req : Invocation) (oldCodeDir : String) (left : List Nat)
  | queueKill (req : Invocation) (oldCodeDir : String) (left : List Nat) (token : Nat)
  | queueCode (req : Invocation) (oldCodeDir : String)
  | dispatching (req : Invocation)
  | signalling (req : Invocation) (scale : Bool)
  | scaling
  | queueScaled (token now : Nat) (desired : Int)
  | dying (left : List Nat)
  | queueDying (left : List Nat) (token : Nat)
  | awaiting
  | exited
  deriving DecidableEq, Repr

-- One LambdaFunc with its Task, its cleanup task and its instances, numbered in
-- the order of newInstance. `timeout` is the due time of the timer selected on,
-- none once it was received; `cleaning` is what the cleanup task waits for,
-- `killChan` counts the kills of the function that were asked for.
-- `written`, `removed` and `resets` are what the outside sees; `accepted`,
-- `signalled` and `lost` are history. A panic stops the worker in `fault`.
structure System where
  lastPull : Option Nat
  codeDir : String
  funcMeta : Option FunctionMeta
  funcChan : List Invocation
  instChan : List Invocation
  doneChan : List Invocation
  instances : List Nat
  killChan : Nat
  cleanupChan : List Cleanup
  closed : Bool
  cleaning : Option Nat
  outstandingReqs : Int
  execMs : RollingAvg
  lastScaling : Option Nat
  timeout : Option Nat
  pc : TaskPc
  inst : Nat → LambdaInstance
  nextInst : Nat
  nextSb : Nat
  nextToken : Nat
  nextReq : Nat
  now : Nat
  written : List Written
  removed : List String
  resets : Nat
  accepted : List Nat
  signalled : List Nat
  lost : List Nat
  fault : Option String

def init : System where
  lastPull := none
  codeDir := ""
  funcMeta := none
  funcChan := []
  instChan := []
  doneChan := []
  instances := []
  killChan := 0
  cleanupChan := []
  closed := false
  cleaning := none
  outstandingReqs := 0
  execMs := newRollingAvg 10
  lastScaling := none
  timeout := some 0
  pc := .selecting
  inst := fun _ => newLambdaInstance "" ⟨Common.loadDefaultLambdaConfig,.empty⟩
  nextInst := 0
  nextSb := 0
  nextToken := 0
  nextReq := 0
  now := 0
  written := []
  removed := []
  resets := 0
  accepted := []
  signalled := []
  lost := []
  fault := none

def chanCap : Nat := 1024
def cleanupChanCap : Nat := 32

-- What the calls of pullHandlerIfStale return: HandlerPuller.Pull, parseMeta,
-- the first failing GetPkg, and the creation of the .env file.
structure Pulled where
  codeDir : Except String String
  parsed : Except String FunctionMeta
  install : Option String
  env : Option String

def Pulled.prepareErr (pulled : Pulled) (config : FunctionMeta) : Option String :=
  match config.python,pulled.install,pulled.env with
  | true,some err,_ => some err
  | _,_,some err => some ("failed to create .env file: " ++ err)
  | _,_,none => none

def pullHandlerIfStale (conf : Conf) (s : System) (pulled : Pulled) : System × Option String :=
  if s.lastPull.any fun last => decide ((s.now : Int) - last < conf.cacheNs) then (s,none)
  else match pulled.codeDir with
    | .error err => (s,some err)
    | .ok codeDir =>
        if codeDir = s.codeDir then (s,none)
        else match pulled.parsed with
          | .error err => (s,some err)
          | .ok config => match pulled.prepareErr config with
              | some err =>
                  ({s with
                    removed := s.removed ++ [codeDir]
                    resets := if config.python then s.resets + 1 else s.resets},some err)
              | none => ({s with funcMeta := some config,codeDir := codeDir,lastPull := some s.now},none)

inductive Action where
  | invoke (method : String)
  | tick (ns : Nat)
  | timer
  | receive
  | pull (pulled : Pulled)
  | check
  | kill
  | queue
  | dispatch
  | finished
  | signal
  | scale
  | queueScaled
  | askKill
  | takeKill
  | exit
  | cleanup
  | take (i : Nat)
  | act (i : Nat) (action : Local)
  | report (i : Nat)
  | grab (i : Nat)
  | ack (i : Nat)

def System.put (s : System) (i : Nat) (l : LambdaInstance) : System := {s with inst := Function.update s.inst i l}

def System.write (s : System) (w : Written) : System := {s with written := s.written ++ [w]}

def System.invoke (s : System) (method : String) : System :=
  if s.funcChan.length < chanCap then
    {s with
      funcChan := s.funcChan ++ [⟨s.nextReq,method,0⟩]
      nextReq := s.nextReq + 1
      accepted := s.accepted ++ [s.nextReq]}
  else {s.write ⟨s.nextReq,429,"lambda function queue is full\n"⟩ with nextReq := s.nextReq + 1}

def methodNotAllowed (req : Invocation) (config : FunctionMeta) : Written :=
  let allowed := "[" ++ " ".intercalate config.config.allowedHTTPMethods ++ "]"
  ⟨req.id,405,"HTTP method not allowed. Sent: " ++ req.method ++ ", Allowed: " ++ allowed ++ "\n"⟩

def System.pull (conf : Conf) (s : System) (req : Invocation) (pulled : Pulled) : System :=
  match pullHandlerIfStale conf s pulled with
  | (t,some err) => {t.write ⟨req.id,500,err ++ "\n"⟩ with pc := .signalling req false}
  | (t,none) => {t with pc := .checking req s.codeDir}

def System.check (s : System) (req : Invocation) (oldCodeDir : String) : System :=
  match s.funcMeta with
  | none => {s with fault := some "nil pointer dereference"}
  | some config =>
      if config.isHTTPMethodAllowed req.method then
        {s with pc := if oldCodeDir ≠ "" ∧ oldCodeDir ≠ s.codeDir then .switching req oldCodeDir s.instances
          else .dispatching req}
      else {s.write (methodNotAllowed req config) with pc := .signalling req false}

def System.asyncKill (s : System) (i : Nat) : Option System :=
  if (s.inst i).killChan.length < killChanCap then
    some {s.put i {s.inst i with killChan := (s.inst i).killChan ++ [s.nextToken]} with nextToken := s.nextToken + 1}
  else none

def System.queue (s : System) (msg : Cleanup) (pc : TaskPc) : Option System :=
  if s.cleanupChan.length < cleanupChanCap then some {s with cleanupChan := s.cleanupChan ++ [msg],pc := pc}
  else none

def System.dispatch (s : System) (req : Invocation) : System :=
  if s.instChan.length < chanCap then
    {s with instChan := s.instChan ++ [req],outstandingReqs := s.outstandingReqs + 1,pc := .scaling}
  else {s.write ⟨req.id,429,"lambda instance queue is full\n"⟩ with pc := .signalling req true}

-- One sandbox per 10ms of outstanding work, no more than there are outstanding
-- requests, and always one.
def desiredInstances (outstandingReqs avg : Int) : Int :=
  max 1 (min outstandingReqs ((outstandingReqs * avg).tdiv 10))

def adjustFreq : Nat := 100 * 1000000

def System.newInstance (s : System) : System :=
  if s.codeDir = "" then {s with fault := some "cannot start instance until code has been fetched"}
  else match s.funcMeta with
    | none => {s with fault := some "nil pointer dereference"}
    | some config =>
        {s.put s.nextInst (newLambdaInstance s.codeDir config) with
          instances := s.instances ++ [s.nextInst]
          nextInst := s.nextInst + 1}

def System.adjusted (s : System) (now : Nat) (desired : Int) : System :=
  {s with
    lastScaling := some now
    timeout := if (s.instances.length : Int) ≠ desired then some (s.now + adjustFreq) else s.timeout
    pc := .selecting}

-- The scaling step at time s.now: at most one adjustment per adjustFreq.
def System.scale (s : System) : Option System :=
  let desired := desiredInstances s.outstandingReqs s.execMs.avg
  match s.lastScaling.filter fun last => decide (s.now - last < adjustFreq) with
  | some last =>
      some {s with
        timeout := if desired ≠ s.instances.length then some (last + adjustFreq) else s.timeout
        pc := .selecting}
  | none =>
      if (s.instances.length : Int) < desired then some (s.newInstance.adjusted s.now desired)
      else if desired < s.instances.length then
        match s.instances.getLast? with
        | some i => (s.asyncKill i).map fun t =>
            {t with instances := s.instances.dropLast,pc := .queueScaled s.nextToken s.now desired}
        | none => none
      else some {s with pc := .selecting}

def System.kill (s : System) : Option System :=
  match s.pc with
  | .switching req oldCodeDir (i :: left) =>
      (s.asyncKill i).map fun t => {t with pc := .queueKill req oldCodeDir left s.nextToken}
  | .switching req oldCodeDir [] => some {s with instances := [],pc := .queueCode req oldCodeDir}
  | .dying (i :: left) => (s.asyncKill i).map fun t => {t with pc := .queueDying left s.nextToken}
  | .dying [] => some {s with closed := true,pc := .awaiting}
  | _ => none

def TaskPc.message : TaskPc → Option (Cleanup × TaskPc)
  | .queueKill req oldCodeDir left token => some (.wait token,.switching req oldCodeDir left)
  | .queueCode req oldCodeDir => some (.path oldCodeDir,.dispatching req)
  | .queueDying left token => some (.wait token,.dying left)
  | _ => none

def System.timer (s : System) : Option System :=
  match s.pc,s.timeout with
  | .selecting,some due =>
      if due ≤ s.now then some {s with timeout := none,pc := if s.codeDir = "" then .selecting else .scaling}
      else none
  | _,_ => none

def System.finished (s : System) : Option System :=
  match s.pc,s.doneChan with
  | .selecting,req :: rest =>
      some {s with
        doneChan := rest
        execMs := s.execMs.add req.execMs
        outstandingReqs := s.outstandingReqs - 1
        pc := .signalling req true}
  | _,_ => none

-- The client waits on req.done from the moment its request is queued, so the
-- send on it never blocks.
def System.signal (s : System) : Option System :=
  match s.pc with
  | .signalling req scale =>
      some {s with signalled := s.signalled ++ [req.id],pc := if scale then .scaling else .selecting}
  | _ => none

def System.takeKill (s : System) : Option System :=
  match s.pc with
  | .selecting => if 0 < s.killChan then some {s with killChan := s.killChan - 1,pc := .dying s.instances} else none
  | _ => none

def System.exit (s : System) : Option System :=
  match s.pc,s.cleaning,s.cleanupChan with
  | .awaiting,none,[] => if s.closed then some {s with pc := .exited} else none
  | _,_,_ => none

def System.cleanup (s : System) : Option System :=
  match s.cleaning,s.cleanupChan with
  | none,.path dir :: rest => some {s with cleanupChan := rest,removed := s.removed ++ [dir]}
  | none,.wait token :: rest => some {s with cleanupChan := rest,cleaning := some token}
  | _,_ => none

def System.take (s : System) (i : Nat) : Option System :=
  match (s.inst i).pc,s.instChan with
  | .waiting,req :: rest => some {s.put i ((s.inst i).accept req) with instChan := rest}
  | _,_ => none

def System.act (conf : Conf) (s : System) (i : Nat) (action : Local) : Option System :=
  (localStep conf.zygotes s.nextSb (s.inst i) action).map fun out =>
    {s.put i out.inst with nextSb := s.nextSb + 1,written := s.written ++ out.written,fault := out.fault}

def System.report (s : System) (i : Nat) : Option System :=
  match (s.inst i).pc with
  | .reporting req failed =>
      if s.doneChan.length < chanCap then
        some {s.put i ((s.inst i).report req failed) with doneChan := s.doneChan ++ [req]}
      else none
  | _ => none

-- The non-blocking receive at the end of the serve loop. `lost` records a
-- request that was received without a sandbox to serve it.
def System.grab (s : System) (i : Nat) : Option System :=
  match (s.inst i).pc,s.instChan with
  | .grabbing,req :: rest =>
      some {s.put i ((s.inst i).grab req) with
        instChan := rest
        lost := if (s.inst i).sb = none then s.lost ++ [req.id] else s.lost}
  | .grabbing,[] => some (s.put i {s.inst i with pc := if (s.inst i).sb = none then .waiting else .leaving})
  | _,_ => none

def System.ack (s : System) (i : Nat) : Option System :=
  match (s.inst i).pc with
  | .acking token =>
      if s.cleaning = some token then some {s.put i {s.inst i with pc := .stopped} with cleaning := none} else none
  | _ => none

def System.receive (s : System) : Option System :=
  match s.pc,s.funcChan with
  | .selecting,req :: rest => some {s with funcChan := rest,pc := .pulling req}
  | _,_ => none

def step (conf : Conf) (s : System) (action : Action) : Option System :=
  if s.fault ≠ none then none
  else match action with
    | .invoke method => some (s.invoke method)
    | .tick ns => some {s with now := s.now + ns}
    | .timer => s.timer
    | .receive => s.receive
    | .pull pulled => match s.pc with
        | .pulling req => some (s.pull conf req pulled)
        | _ => none
    | .check => match s.pc with
        | .checking req oldCodeDir => some (s.check req oldCodeDir)
        | _ => none
    | .kill => s.kill
    | .queue => match s.pc.message with
        | some (msg,pc) => s.queue msg pc
        | none => none
    | .dispatch => match s.pc with
        | .dispatching req => some (s.dispatch req)
        | _ => none
    | .finished => s.finished
    | .signal => s.signal
    | .scale => match s.pc with
        | .scaling => s.scale
        | _ => none
    | .queueScaled => match s.pc with
        | .queueScaled token now desired => (s.queue (.wait token) .selecting).map (·.adjusted now desired)
        | _ => none
    | .askKill => if s.killChan < killChanCap then some {s with killChan := s.killChan + 1} else none
    | .takeKill => s.takeKill
    | .exit => s.exit
    | .cleanup => s.cleanup
    | .take i => if i < s.nextInst then s.take i else none
    | .act i action => if i < s.nextInst then s.act conf i action else none
    | .report i => if i < s.nextInst then s.report i else none
    | .grab i => if i < s.nextInst then s.grab i else none
    | .ack i => if i < s.nextInst then s.ack i else none

end OpenLambda.Lambda
