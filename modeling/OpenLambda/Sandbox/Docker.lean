import OpenLambda.Foundation.Runs
import Mathlib.Logic.Function.Basic

namespace OpenLambda.Docker
open Foundation.Runs

inductive Request where
  | start
  | inspect
  | exec
  | pause
  | unpause
  | kill
  | remove
  deriving DecidableEq, Repr

-- The docker daemon and its client, over what they know of a container. `grants` has
-- the requests that may succeed, with the container afterwards; any may be refused.
-- `changes` is what a container can become by itself.
structure Daemon (δ : Type) where
  running : δ → Bool
  paused : δ → Bool
  creates : δ → Bool
  grants : δ → Request → δ → Bool
  changes : δ → δ → Bool

def Daemon.answer (d : Daemon δ) (status : Option δ) (r : Request) (reply : Option δ) : Option δ :=
  reply.filter fun after => status.any (d.grants · r after)

inductive Pc where
  | createContainer
  | start
  | startInspect
  | runServer
  | waitForServerPipeReady
  | sockPath
  | pauseState
  | pauseContainer
  | unpauseState
  | unpauseContainer
  | destroyState (creating : Bool)
  | destroyUnpause (creating : Bool)
  | kill (creating : Bool)
  | sockets (creating : Bool)
  | remove (creating : Bool)
  deriving DecidableEq, Repr

-- A sandbox with its safeSandbox: not created, within a call that holds the lock,
-- ready with the flag `paused`, dead; or Create returned an error, after it destroyed
-- the container or without a look at it.
inductive Life where
  | unborn
  | within (pc : Pc)
  | ready (paused : Bool)
  | dead
  | failed
  | abandoned
  deriving DecidableEq, Repr

structure Box (δ : Type) where
  status : Option δ
  life : Life
  deriving DecidableEq, Repr

inductive Call where
  | pause
  | unpause
  | destroy
  | destroyIfPaused
  deriving DecidableEq, Repr

-- safeSandbox goes by its own flag and passes on only what changes it.
def Call.enter (paused : Bool) : Call → Life
  | .pause => if paused then .ready true else .within .pauseState
  | .unpause => if paused then .within .unpauseState else .ready false
  | .destroy => .within (.destroyState false)
  | .destroyIfPaused => if paused then .within (.destroyState false) else .ready false

def Box.attempt (d : Daemon δ) (box : Box δ) (r : Request) (reply : Option δ) (good bad : Life) : Box δ :=
  match d.answer box.status r reply with
  | some after => ⟨some after,good⟩
  | none => {box with life := bad}

-- State() of a container that does not run is an error.
def Box.state (d : Daemon δ) (box : Box δ) (reply : Option δ) (running paused other : Life) : Box δ :=
  match d.answer box.status .inspect reply with
  | some c => ⟨some c,if d.running c then if d.paused c then paused else running else other⟩
  | none => {box with life := other}

-- One request or system call, with `reply` for how it goes; `none` is the panic of
-- Destroy. internalDestroy ignores what Unpause returns.
def Box.go (d : Daemon δ) (box : Box δ) (reply : Option δ) : Pc → Option (Box δ)
  | .createContainer => some (match reply.filter d.creates with
      | some c => ⟨some c,.within .start⟩
      | none => {box with life := .failed})
  | .start => some (box.attempt d .start reply (.within .startInspect) (.within (.destroyState true)))
  | .startInspect => some (box.attempt d .inspect reply (.within .runServer) (.within (.destroyState true)))
  | .runServer => some (box.attempt d .exec reply (.within .waitForServerPipeReady) (.within (.destroyState true)))
  | .waitForServerPipeReady => some {box with life := .within (if reply.isSome then .sockPath else .destroyState true)}
  | .sockPath => some {box with life := if reply.isSome then .ready false else .abandoned}
  | .pauseState => some (box.state d reply (.within .pauseContainer) (.ready true) (.within (.destroyState false)))
  | .pauseContainer => some (box.attempt d .pause reply (.ready true) (.within (.destroyState false)))
  | .unpauseState => some (box.state d reply (.ready false) (.within .unpauseContainer) (.within (.destroyState false)))
  | .unpauseContainer => some (box.attempt d .unpause reply (.ready false) (.within (.destroyState false)))
  | .destroyState c => some (box.state d reply (.within (.kill c)) (.within (.destroyUnpause c)) (.within (.kill c)))
  | .destroyUnpause c => some (box.attempt d .unpause reply (.within (.kill c)) (.within (.kill c)))
  | .kill c => (d.answer box.status .kill reply).map fun after => ⟨some after,.within (.sockets c)⟩
  | .sockets c => if reply.isSome then some {box with life := .within (.remove c)} else none
  | .remove c => (d.answer box.status .remove reply).map fun _ => ⟨none,if c then .failed else .dead⟩

structure Worker (δ : Type) where
  box : Nat → Box δ
  panicked : Bool

def init : Worker δ := ⟨fun _ => ⟨none,.unborn⟩,false⟩

def Worker.put (w : Worker δ) (b : Nat) (box : Box δ) : Worker δ := {w with box := Function.update w.box b box}

inductive Action (δ : Type) where
  | create (b : Nat)
  | call (b : Nat) (c : Call)
  | go (b : Nat) (reply : Option δ)
  | change (b : Nat) (after : δ)
  deriving DecidableEq, Repr

def Worker.create (w : Worker δ) (b : Nat) : Option (Worker δ) :=
  match w.box b with
  | ⟨none,.unborn⟩ => some (w.put b ⟨none,.within .createContainer⟩)
  | _ => none

def Worker.call (w : Worker δ) (b : Nat) (c : Call) : Option (Worker δ) :=
  match w.box b with
  | ⟨status,.ready paused⟩ => some (w.put b ⟨status,c.enter paused⟩)
  | ⟨_,.dead⟩ => some w
  | _ => none

def Worker.go (d : Daemon δ) (w : Worker δ) (b : Nat) (reply : Option δ) : Option (Worker δ) :=
  match (w.box b).life with
  | .within pc => match (w.box b).go d reply pc with
      | some box => some (w.put b box)
      | none => some {w with panicked := true}
  | _ => none

def Worker.change (d : Daemon δ) (w : Worker δ) (b : Nat) (after : δ) : Option (Worker δ) :=
  if (w.box b).status.any (d.changes · after) then some (w.put b ⟨some after,(w.box b).life⟩) else none

def step (d : Daemon δ) (w : Worker δ) (action : Action δ) : Option (Worker δ) :=
  if w.panicked then none
  else match action with
    | .create b => w.create b
    | .call b c => w.call b c
    | .go b reply => w.go d b reply
    | .change b after => w.change d b after

inductive Moves (d : Daemon δ) (b : Nat) (box : Box δ) : Action δ → Option (Box δ) → Prop where
  | created (new : box = ⟨none,.unborn⟩) : Moves d b box (.create b) (some ⟨none,.within .createContainer⟩)
  | called (ready : box = ⟨status,.ready paused⟩) : Moves d b box (.call b c) (some ⟨status,c.enter paused⟩)
  | went (within : box.life = .within pc) (ends : box.go d reply pc = result) : Moves d b box (.go b reply) result
  | changed (may : box.status.any (d.changes · after) = true) : Moves d b box (.change b after) (some ⟨some after,box.life⟩)

def Action.goes (b : Nat) : Action δ → Bool
  | .go other _ => other == b
  | .create _ | .call _ _ | .change _ _ => false

inductive Local (d : Daemon δ) (w : Worker δ) (action : Action δ) (t : Worker δ) (b : Nat) : Prop where
  | kept (same : t.box b = w.box b) (quiet : action.goes b = false) (up : t.panicked = false)
  | moved (moves : Moves d b (w.box b) action (some (t.box b))) (up : t.panicked = false)
  | ended (moves : Moves d other (w.box other) action none) (same : t.box = w.box) (down : t.panicked = true)

def Pc.started : Pc → Bool
  | .createContainer | .start | .sockets _ | .remove _ => false
  | _ => true

def Life.started : Life → Bool
  | .unborn | .dead | .failed => false
  | .within pc => pc.started
  | .ready _ | .abandoned => true

-- How many requests are left at most on the way to the kill of a container that does
-- not run, with that kill; 0 where the call may still end otherwise.
def Pc.left : Pc → Nat
  | .pauseState | .unpauseState => 3
  | .destroyState _ | .destroyUnpause _ => 2
  | .kill _ => 1
  | _ => 0

def Life.left : Life → Nat
  | .within pc => pc.left
  | _ => 0

inductive Status where
  | created
  | running
  | paused
  | exited
  deriving DecidableEq, Repr

def Status.serve : Status → Request → Option Status
  | .created,.start => some .running
  | .running,.exec => some .running
  | .running,.pause => some .paused
  | .paused,.unpause => some .running
  | .running,.kill | .paused,.kill | .exited,.remove => some .exited
  | status,.inspect => some status
  | _,_ => none

def ended : List (Action Status) :=
  [.create 0,.go 0 (some .created),.go 0 (some .running),.go 0 (some .running),.go 0 (some .running),
    .go 0 (some .running),.go 0 (some .running),.call 0 .pause,.go 0 (some .running),.go 0 (some .paused),
    .change 0 .exited,.call 0 .unpause]

end OpenLambda.Docker
