import OpenLambda.Lambda.Turns
import OpenLambda.Packages.DepTracer

namespace OpenLambda.Event
open Packages

-- Where a goroutine that runs a lambda is: at the lock of LambdaMgr.Get, with
-- the LambdaFunc in hand, on the done channel of its invocation, or back.
inductive CallerPc where
  | getting
  | invoking
  | waiting
  | returned
  deriving DecidableEq, Repr

-- RunLambda for a request of the port server, or a Kafka consumer in
-- processMessage. `id` is the invocation, once Invoke has made it.
structure Caller where
  name : String
  method : String
  http : Bool
  pc : CallerPc
  id : Option Nat
  deriving DecidableEq, Repr

inductive HttpServer where
  | uds
  | tcp
  deriving DecidableEq, Repr

-- Main from the select on. LambdaMgr.Cleanup is all from `lockMap` to
-- `dirsCleanup`; `left` are the functions not yet killed or the servers not yet
-- shut down, in whatever order the map gives them.
inductive MainPc where
  | serving
  | kafkaCleanup
  | lockMap
  | killing (left : List String)
  | awaiting (name : String) (left : List String)
  | zygoteCleanup
  | poolCleanup
  | closeTracer
  | awaitTracer
  | dirsCleanup
  | shutdown (left : List HttpServer)
  | finalStats
  | returned
  deriving DecidableEq, Repr

-- `trigger` is the server error that ended the select, none for a kill signal;
-- `sent` is history: the events traced so far.
structure Worker where
  lfuncMap : List String
  func : String → Lambda.System
  mapLocked : Bool
  caller : Nat → Caller
  nextCaller : Nat
  tracer : DepTracer
  sent : List TraceEvent
  main : MainPc
  trigger : Option String
  fault : Option String

def init : Worker where
  lfuncMap := []
  func := fun _ => Lambda.init
  mapLocked := false
  caller := fun _ => ⟨"","",false,.returned,none⟩
  nextCaller := 0
  tracer := newDepTracer
  sent := []
  main := .serving
  trigger := none
  fault := none

inductive Action where
  | arrive (name method : String) (http : Bool)
  | get (c : Nat)
  | invoke (c : Nat)
  | wake (c : Nat)
  | func (name : String) (action : Lambda.Action) (deps : List String)
  | package (name : String) (inst : Option Nat) (pkg : String) (deps top : List String)
  | tracer
  | trigger (err : Option String)
  | main
  | kill (name : String)
  | shutdown (server : HttpServer)

def MainPc.tcpClosed : MainPc → Bool
  | .shutdown left => !left.contains .tcp
  | .finalStats | .returned => true
  | _ => false

def Worker.put (w : Worker) (c : Nat) (caller : Caller) : Worker := {w with caller := Function.update w.caller c caller}

def Worker.setFunc (w : Worker) (name : String) (s : Lambda.System) : Worker :=
  {w with func := Function.update w.func name s,fault := s.fault}

def Worker.arrive (w : Worker) (name method : String) (http : Bool) : Option Worker :=
  if http && w.main.tcpClosed then none
  else some {w.put w.nextCaller ⟨name,method,http,.getting,none⟩ with nextCaller := w.nextCaller + 1}

def Worker.get (w : Worker) (c : Nat) : Option Worker :=
  if (w.caller c).pc = .getting ∧ w.mapLocked = false then
    some {w.put c {w.caller c with pc := .invoking} with
      lfuncMap := if (w.caller c).name ∈ w.lfuncMap then w.lfuncMap else w.lfuncMap ++ [(w.caller c).name]}
  else none

def Worker.invoke (conf : Lambda.Conf) (w : Worker) (c : Nat) : Option Worker :=
  let s := w.func (w.caller c).name
  if (w.caller c).pc = .invoking then
    (Lambda.step conf s (.invoke (w.caller c).method)).map fun t =>
      (w.setFunc (w.caller c).name t).put c {w.caller c with
        pc := if s.funcChan.length < Lambda.chanCap then .waiting else .returned
        id := some s.nextReq}
  else none

def Worker.wake (w : Worker) (c : Nat) : Option Worker :=
  match (w.caller c).pc,(w.caller c).id with
  | .waiting,some r =>
      if r ∈ (w.func (w.caller c).name).signalled then some (w.put c {w.caller c with pc := .returned}) else none
  | _,_ => none

def Worker.trace (w : Worker) (ev : TraceEvent) : Option Worker :=
  match w.tracer.trace ev with
  | some (.ok tracer) => some {w with tracer := tracer,sent := w.sent ++ [ev]}
  | some (.error text) => some {w with fault := some text}
  | none => none

-- What a step of a function traces: TraceFunction once the packages of new code
-- are there, `deps` being its Installs, and TraceInvocation before a dispatch.
def traceOf (conf : Lambda.Conf) (s : Lambda.System) (deps : List String) : Lambda.Action → Option TraceEvent
  | .dispatch => some (.invocation s.codeDir)
  | .pull pulled =>
      if s.lastPull.any fun last => decide ((s.now : Int) - last < conf.cacheNs) then none
      else match pulled.codeDir,pulled.parsed,pulled.install with
        | .ok codeDir,.ok config,none => if codeDir ≠ s.codeDir ∧ config.python then some (.function codeDir deps) else none
        | _,_,_ => none
  | _ => none

def own : Lambda.Action → Bool
  | .invoke _ | .askKill => false
  | _ => true

def Worker.act (conf : Lambda.Conf) (w : Worker) (name : String) (action : Lambda.Action) (deps : List String) :
    Option Worker :=
  if name ∈ w.lfuncMap ∧ own action then
    match Lambda.step conf (w.func name) action,traceOf conf (w.func name) deps action with
    | some t,none => some (w.setFunc name t)
    | some t,some ev => (w.setFunc name t).trace ev
    | none,_ => none
  else none

-- GetPkg is called by Task while it pulls, and by an instance whose zygote has to
-- be created.
def installs (conf : Lambda.Conf) (s : Lambda.System) : Option Nat → Bool
  | none => match s.pc with
      | .pulling _ => true
      | _ => false
  | some i => match (s.inst i).pc with
      | .creating _ false => decide (i < s.nextInst) && (s.inst i).usesZygote conf.zygotes
      | _ => false

def Worker.package (conf : Lambda.Conf) (w : Worker) (name : String) (inst : Option Nat) (pkg : String)
    (deps top : List String) : Option Worker :=
  if name ∈ w.lfuncMap ∧ installs conf (w.func name) inst then w.trace (.package pkg deps top) else none

def Worker.kill (conf : Lambda.Conf) (w : Worker) (name : String) : Option Worker :=
  match w.main with
  | .killing left =>
      if name ∈ left then
        (Lambda.step conf (w.func name) .askKill).map fun t => {w.setFunc name t with main := .awaiting name (left.erase name)}
      else none
  | _ => none

-- Shutdown returns when the server has no active connection left. The socket
-- server answers /pid at once; a connection of the port server is active while
-- its handler runs.
def Worker.shutdown (w : Worker) (server : HttpServer) : Option Worker :=
  match w.main with
  | .shutdown left =>
      if server ∈ left ∧
          (server = .tcp → ∀ c, c < w.nextCaller → (w.caller c).http = true → (w.caller c).pc = .returned) then
        some {w with main := .shutdown (left.erase server)}
      else none
  | _ => none

def Worker.next (w : Worker) : Option Worker :=
  match w.main with
  | .kafkaCleanup => some {w with main := .lockMap}
  | .lockMap => some {w with mapLocked := true,main := .killing w.lfuncMap}
  | .awaiting name left => if (w.func name).pc = .exited then some {w with main := .killing left} else none
  | .killing [] => some {w with main := .zygoteCleanup}
  | .zygoteCleanup => some {w with main := .poolCleanup}
  | .poolCleanup => some {w with main := .closeTracer}
  | .closeTracer => some {w with tracer := {w.tracer with closed := true},main := .awaitTracer}
  | .awaitTracer => if w.tracer.file ≠ none then some {w with main := .dirsCleanup} else none
  | .dirsCleanup => some {w with main := .shutdown [.uds,.tcp]}
  | .shutdown [] => some {w with main := .finalStats}
  | .finalStats => some {w with main := .returned}
  | _ => none

def step (conf : Lambda.Conf) (w : Worker) (action : Action) : Option Worker :=
  if w.fault ≠ none then none
  else match action with
    | .arrive name method http => w.arrive name method http
    | .get c => if c < w.nextCaller then w.get c else none
    | .invoke c => if c < w.nextCaller then w.invoke conf c else none
    | .wake c => if c < w.nextCaller then w.wake c else none
    | .func name action deps => w.act conf name action deps
    | .package name inst pkg deps top => w.package conf name inst pkg deps top
    | .tracer => w.tracer.run.map fun tracer => {w with tracer := tracer}
    | .trigger err => if w.main = .serving then some {w with trigger := err,main := .kafkaCleanup} else none
    | .main => w.next
    | .kill name => w.kill conf name
    | .shutdown server => w.shutdown server

end OpenLambda.Event
