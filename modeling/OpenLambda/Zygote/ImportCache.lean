import OpenLambda.Sandbox.SafeSandbox
import Mathlib.Logic.Function.Basic

namespace OpenLambda.Zygote
open SafeWrapper (SafeSandbox)

-- The tree of Zygotes as its backpointers; recursiveInit numbers a parent before
-- its children.
structure Tree where
  parent : Nat → Option Nat
  older : ∀ n p, parent n = some p → p < n

-- The fields under the mutex. `mutex` is the call that holds it; sb is nil or
-- the number of a sandbox.
structure ImportCacheNode where
  mutex : Option Nat
  sb : Option Nat
  sbRefCount : Int
  createNonleafChild : Nat
  createLeafChild : Nat
  codeDir : String
  deriving DecidableEq, Repr

def newNode : ImportCacheNode := ⟨none,none,0,0,0,""⟩

inductive CreateErr where
  | forkFailed
  | other (msg : String)
  deriving DecidableEq, Repr

inductive Result where
  | sandbox (sb : Nat)
  | failed (err : CreateErr)
  deriving DecidableEq, Repr

-- Where a call of createChildSandboxFromNode is. From `locked` to `building` it
-- is in getSandboxInNode, with the mutex of its node; `building` waits for the
-- call that creates the node's sandbox from the parent. `creating` is
-- childSandboxPool.Create with the Zygote that was got. From `dropping` to
-- `pausing` it is in putSandboxInNode, with the mutex again. `collected` is a
-- call whose result was taken by its caller.
inductive Stage where
  | start
  | locked
  | looking
  | unpausing (sb : Nat)
  | preparing
  | making
  | building (sub : Nat)
  | creating (sb : Nat) (isNew : Bool)
  | putting (sb : Nat) (isNew : Bool) (result : Result)
  | dropping (sb : Nat) (isNew : Bool) (result : Result)
  | pausing (sb : Nat) (isNew : Bool) (result : Result)
  | returned (result : Result)
  | collected
  deriving DecidableEq, Repr

-- One call, with its loop variable and forceNew. `got` and `put` are history:
-- the sandboxes getSandboxInNode returned to it, and those it gave to
-- putSandboxInNode.
structure ChildCreate where
  node : Nat
  isLeaf : Bool
  caller : Option Nat
  i : Nat
  forceNew : Bool
  stage : Stage
  got : List Nat
  put : List Nat
  deriving DecidableEq, Repr

inductive Fate where
  | unused
  | given
  | transit (call : Nat)
  | placed (node : Nat)
  deriving DecidableEq, Repr

-- The cache with all calls made on it. `doomed` are the sandboxes whose Destroy
-- was started in a goroutine; `fate` is history. A panic stops the worker.
structure Cache where
  node : Nat → ImportCacheNode
  call : Nat → ChildCreate
  nextCall : Nat
  sb : Nat → SafeSandbox
  fate : Nat → Fate
  nextSb : Nat
  doomed : List Nat
  fault : Option String

def init : Cache where
  node := fun _ => newNode
  call := fun _ => ⟨0,false,none,0,false,.collected,[],[]⟩
  nextCall := 0
  sb := fun _ => SafeWrapper.newSafeSandbox
  fate := fun _ => .unused
  nextSb := 0
  doomed := []
  fault := none

def Cache.act (s : Cache) (c : Nat) (node : ImportCacheNode) (call : ChildCreate) : Cache :=
  {s with
    node := Function.update s.node (s.call c).node node
    call := Function.update s.call c call}

def Cache.nodeOf (s : Cache) (c : Nat) : ImportCacheNode := s.node (s.call c).node

def Cache.spawn (s : Cache) (node : Nat) (isLeaf : Bool) (caller : Option Nat) : Cache :=
  {s with
    call := Function.update s.call s.nextCall ⟨node,isLeaf,caller,0,false,.start,[],[]⟩
    nextCall := s.nextCall + 1}

def Cache.mint (s : Cache) (fate : Fate) : Cache :=
  {s with
    sb := Function.update s.sb s.nextSb (SafeWrapper.startNotifyingListeners SafeWrapper.newSafeSandbox).1
    fate := Function.update s.fate s.nextSb fate
    nextSb := s.nextSb + 1}

def Cache.setSb (s : Cache) (sb : Nat) (state : SafeSandbox) : Cache := {s with sb := Function.update s.sb sb state}

def Cache.place (s : Cache) (sb node : Nat) : Cache := {s with fate := Function.update s.fate sb (.placed node)}

def Cache.collect (s : Cache) (c : Nat) : Cache :=
  {s with call := Function.update s.call c {s.call c with stage := .collected}}

def ChildCreate.goto (k : ChildCreate) (stage : Stage) : ChildCreate := {k with stage := stage}

def Cache.getReturns (s : Cache) (c : Nat) (node : ImportCacheNode) (sb : Nat) (isNew : Bool) : Cache :=
  s.act c {node with mutex := none} {s.call c with stage := .creating sb isNew,got := (s.call c).got ++ [sb]}

def Cache.getFails (s : Cache) (c : Nat) (node : ImportCacheNode) (err : CreateErr) : Cache :=
  s.act c {node with mutex := none} ((s.call c).goto (.returned (.failed err)))

def Cache.getNew (s : Cache) (c sb : Nat) : Cache :=
  s.getReturns c {s.nodeOf c with sb := some sb,sbRefCount := 1} sb true

def ChildCreate.putReturns (k : ChildCreate) (isNew : Bool) (result : Result) : ChildCreate :=
  if result ≠ .failed .forkFailed ∨ isNew = true then k.goto (.returned result)
  else {k with i := k.i + 1,forceNew := true,stage := .start}

def Cache.lock (s : Cache) (c : Nat) : Option Cache :=
  match (s.call c).stage with
  | .start =>
      if (s.call c).i < 2 then
        if (s.nodeOf c).mutex = none then some (s.act c {s.nodeOf c with mutex := some c} ((s.call c).goto .locked))
        else none
      else some {s with fault := some "'unreachable' code"}
  | _ => none

def Cache.force (s : Cache) (c : Nat) : Option Cache :=
  match (s.call c).stage with
  | .locked => match (s.call c).forceNew,(s.nodeOf c).sb with
      | true,some old =>
          some {s.act c {s.nodeOf c with sb := none} ((s.call c).goto .looking) with doomed := s.doomed ++ [old]}
      | _,_ => some (s.act c (s.nodeOf c) ((s.call c).goto .looking))
  | _ => none

def Cache.look (s : Cache) (c : Nat) : Option Cache :=
  match (s.call c).stage with
  | .looking => match (s.nodeOf c).sb with
      | some sb =>
          if (s.nodeOf c).sbRefCount = 0 then some (s.act c (s.nodeOf c) ((s.call c).goto (.unpausing sb)))
          else some (s.getReturns c {s.nodeOf c with sbRefCount := (s.nodeOf c).sbRefCount + 1} sb false)
      | none => some (s.act c (s.nodeOf c) ((s.call c).goto .preparing))
  | _ => none

def Cache.unpause (s : Cache) (c : Nat) (inner : Option String) : Option Cache :=
  match (s.call c).stage with
  | .unpausing sb =>
      let effect := SafeWrapper.unpause (s.sb sb) inner
      let t := s.setSb sb effect.sb
      match effect.err with
      | some err => some (t.getFails c {s.nodeOf c with sb := none} (.other err))
      | none => some (t.getReturns c {s.nodeOf c with sbRefCount := (s.nodeOf c).sbRefCount + 1} sb false)
  | _ => none

-- createSandboxInNode: the code directory is set up once. `err` is the error of
-- InstallRecursive or of a GetPkg.
def Cache.prepare (s : Cache) (c : Nat) (codeDir : String) (err : Option String) : Option Cache :=
  match (s.call c).stage with
  | .preparing =>
      if (s.nodeOf c).codeDir = "" then
        match err with
        | some e => some (s.getFails c (s.nodeOf c) (.other e))
        | none => some (s.act c {s.nodeOf c with codeDir := codeDir} ((s.call c).goto .making))
      else some (s.act c (s.nodeOf c) ((s.call c).goto .making))
  | _ => none

-- The sandbox of the root is created afresh, with the outcome `err`; any other
-- is forked from the parent node by a call of its own.
def Cache.make (tree : Tree) (s : Cache) (c : Nat) (err : Option CreateErr) : Option Cache :=
  match (s.call c).stage with
  | .making => match tree.parent (s.call c).node with
      | some parent =>
          let t := s.spawn parent false (some c)
          some (t.act c (s.nodeOf c) ((s.call c).goto (.building s.nextCall)))
      | none => match err with
          | none => some ((s.mint (.placed (s.call c).node)).getNew c s.nextSb)
          | some e => some (s.getFails c (s.nodeOf c) e)
  | _ => none

def Cache.built (s : Cache) (c : Nat) : Option Cache :=
  match (s.call c).stage with
  | .building sub => match (s.call sub).stage with
      | .returned (.sandbox sb) => some (((s.collect sub).place sb (s.call c).node).getNew c sb)
      | .returned (.failed err) => some ((s.collect sub).getFails c (s.nodeOf c) err)
      | _ => none
  | _ => none

def ImportCacheNode.created (node : ImportCacheNode) (isLeaf : Bool) : ImportCacheNode :=
  if isLeaf then {node with createLeafChild := node.createLeafChild + 1}
  else {node with createNonleafChild := node.createNonleafChild + 1}

def Cache.create (s : Cache) (c : Nat) (err : Option CreateErr) : Option Cache :=
  match (s.call c).stage with
  | .creating sb isNew => match err with
      | none =>
          let t := s.mint (if (s.call c).caller = none then .given else .transit c)
          some (t.act c ((s.nodeOf c).created (s.call c).isLeaf)
            ((s.call c).goto (.putting sb isNew (.sandbox s.nextSb))))
      | some e => some (s.act c (s.nodeOf c) ((s.call c).goto (.putting sb isNew (.failed e))))
  | _ => none

def Cache.lockPut (s : Cache) (c : Nat) : Option Cache :=
  match (s.call c).stage with
  | .putting sb isNew result =>
      if (s.nodeOf c).mutex = none then
        some (s.act c {s.nodeOf c with mutex := some c} ((s.call c).goto (.dropping sb isNew result)))
      else none
  | _ => none

def Cache.drop (s : Cache) (c : Nat) : Option Cache :=
  match (s.call c).stage with
  | .dropping sb isNew result =>
      let put := {s.call c with put := (s.call c).put ++ [sb]}
      if (s.nodeOf c).sb = some sb then
        let node : ImportCacheNode := {s.nodeOf c with sbRefCount := (s.nodeOf c).sbRefCount - 1}
        if node.sbRefCount = 0 then some (s.act c node (put.goto (.pausing sb isNew result)))
        else if node.sbRefCount < 0 then some {s.act c node put with fault := some "negative ref count"}
        else some (s.act c {node with mutex := none} (put.putReturns isNew result))
      else some (s.act c {s.nodeOf c with mutex := none} (put.putReturns isNew result))
  | _ => none

def Cache.pause (s : Cache) (c : Nat) (inner : Option String) : Option Cache :=
  match (s.call c).stage with
  | .pausing sb isNew result =>
      let effect := SafeWrapper.pause (s.sb sb) inner
      let t := s.setSb sb effect.sb
      let node := if effect.err = none then s.nodeOf c else {s.nodeOf c with sb := none}
      some (t.act c {node with mutex := none} ((s.call c).putReturns isNew result))
  | _ => none

-- recursiveKill at one node; it takes the mutex, and children come first.
def Cache.kill (s : Cache) (n : Nat) : Option Cache :=
  if (s.node n).mutex = none then
    match (s.node n).sb with
    | some sb =>
        let t := s.setSb sb (SafeWrapper.destroy (s.sb sb) "ImportCache recursiveKill").sb
        some {t with node := Function.update s.node n {s.node n with sb := none}}
    | none => some s
  else none

def Cache.doom (s : Cache) (sb : Nat) : Option Cache :=
  if sb ∈ s.doomed then
    let t := s.setSb sb (SafeWrapper.destroy (s.sb sb) "ImportCache forceNew used").sb
    some {t with doomed := s.doomed.erase sb}
  else none

-- `evict` is the evictor, which may destroy any sandbox at any time.
inductive Action where
  | call (node : Nat) (isLeaf : Bool)
  | lock (c : Nat)
  | force (c : Nat)
  | look (c : Nat)
  | unpause (c : Nat) (inner : Option String)
  | prepare (c : Nat) (codeDir : String) (err : Option String)
  | make (c : Nat) (err : Option CreateErr)
  | built (c : Nat)
  | create (c : Nat) (err : Option CreateErr)
  | lockPut (c : Nat)
  | drop (c : Nat)
  | pause (c : Nat) (inner : Option String)
  | kill (node : Nat)
  | doom (sb : Nat)
  | evict (sb : Nat) (force : Bool) (reason : String)
  deriving DecidableEq, Repr

def Cache.evict (s : Cache) (sb : Nat) (force : Bool) (reason : String) : Cache :=
  s.setSb sb (if force then SafeWrapper.destroy (s.sb sb) reason else SafeWrapper.destroyIfPaused (s.sb sb) reason).sb

def callStep (tree : Tree) (s : Cache) (c : Nat) : Action → Option Cache
  | .lock _ => s.lock c
  | .force _ => s.force c
  | .look _ => s.look c
  | .unpause _ inner => s.unpause c inner
  | .prepare _ codeDir err => s.prepare c codeDir err
  | .make _ err => s.make tree c err
  | .built _ => s.built c
  | .create _ err => s.create c err
  | .lockPut _ => s.lockPut c
  | .drop _ => s.drop c
  | .pause _ inner => s.pause c inner
  | _ => none

def Action.actor : Action → Option Nat
  | .lock c | .force c | .look c | .unpause c _ | .prepare c _ _ | .make c _ | .built c | .create c _ | .lockPut c
  | .drop c | .pause c _ => some c
  | _ => none

def step (tree : Tree) (s : Cache) (action : Action) : Option Cache :=
  if s.fault ≠ none then none
  else match action.actor with
    | some c => if c < s.nextCall then callStep tree s c action else none
    | none => match action with
        | .call node isLeaf => some (s.spawn node isLeaf none)
        | .kill node => s.kill node
        | .doom sb => s.doom sb
        | .evict sb force reason => some (s.evict sb force reason)
        | _ => none

end OpenLambda.Zygote
