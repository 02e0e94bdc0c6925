import OpenLambda.Common.LambdaConfig
import OpenLambda.Sandbox.Meta

namespace OpenLambda.Lambda
open Common Sandbox

-- `id` stands for the Invocation itself, with its response writer and its done
-- channel; execMs is what the instance measured.
structure Invocation where
  id : Nat
  method : String
  execMs : Int
  deriving DecidableEq, Repr

structure FunctionMeta where
  config : LambdaConfig
  sandbox : SandboxMeta
  deriving DecidableEq, Repr

def FunctionMeta.reuseSandbox (fn : FunctionMeta) : Bool := fn.config.reuseSandbox

def FunctionMeta.isHTTPMethodAllowed (fn : FunctionMeta) (method : String) : Bool := fn.config.isHTTPMethodAllowed method

def FunctionMeta.python (fn : FunctionMeta) : Bool := fn.sandbox.runtime == .python

def codeMeta (runtime : RuntimeType) (reuseSandbox : Bool) (methods : List String) : FunctionMeta :=
  ⟨⟨⟨methods.map (⟨·⟩),[],[]⟩,[],reuseSandbox⟩,{SandboxMeta.empty with runtime := runtime}⟩

structure Written where
  id : Nat
  status : Nat
  body : String
  deriving DecidableEq, Repr

def trySendError (req : Invocation) (statusCode : Nat) (msg : String) (debug : Option String) : Written :=
  match debug with
  | some state => ⟨req.id,statusCode,msg ++ "\nSandbox State: " ++ state ++ "\n"⟩
  | none => ⟨req.id,statusCode,msg ++ "\n"⟩

-- Where LambdaInstance.Task is. `creating` records whether the import cache was
-- tried, `reporting` whether the request failed for want of a sandbox; tokens
-- are the channels on which a kill is acknowledged.
inductive Pc where
  | waiting
  | unpausing (req : Invocation)
  | creating (req : Invocation) (tried : Bool)
  | forwarding (req : Invocation)
  | reporting (req : Invocation) (failed : Bool)
  | settling
  | checkingKill
  | grabbing
  | leaving
  | killing (token : Nat)
  | acking (token : Nat)
  | stopped
  deriving DecidableEq, Repr

inductive SandboxCall where
  | create (sb : Nat)
  | unpause (sb : Nat) (err : Option String)
  | forward (sb req : Nat)
  | pause (sb : Nat) (err : Option String)
  | destroy (sb : Nat) (reason : String)
  deriving DecidableEq, Repr

-- `calls`, `received` and `forwarded` are history: the calls on sandboxes, the
-- requests taken from instChan and those sent on doneChan.
structure LambdaInstance where
  codeDir : String
  funcMeta : FunctionMeta
  killChan : List Nat
  sb : Option Nat
  pc : Pc
  calls : List SandboxCall
  received : List Nat
  forwarded : List Nat
  deriving DecidableEq, Repr

def newLambdaInstance (codeDir : String) (funcMeta : FunctionMeta) : LambdaInstance :=
  ⟨codeDir,funcMeta,[],none,.waiting,[],[],[]⟩

def killChanCap : Nat := 1

inductive RoundTrip where
  | badRequest (err debug : String)
  | failed (err debug : String)
  | replied (status : Nat) (body : String) (copyErr : Option (String × String))
  deriving DecidableEq, Repr

inductive Local where
  | takeKill
  | unpause (err : Option String)
  | zygoteCreate (err : Option String)
  | create (err : Option String)
  | roundTrip (outcome : RoundTrip) (ms : Nat)
  | settle
  | checkKill
  | pause (err : Option String)
  | destroy
  deriving DecidableEq, Repr

structure Outcome where
  inst : LambdaInstance
  written : List Written
  fault : Option String
  deriving DecidableEq, Repr

def LambdaInstance.call (l : LambdaInstance) (call : SandboxCall) : LambdaInstance :=
  {l with calls := l.calls ++ [call]}

def LambdaInstance.destroySb (l : LambdaInstance) (reason : String) : LambdaInstance :=
  match l.sb with
  | some sb => l.call (.destroy sb reason)
  | none => l

def LambdaInstance.usesZygote (zygotes : Bool) (l : LambdaInstance) : Bool := zygotes && l.funcMeta.python

def LambdaInstance.accept (l : LambdaInstance) (req : Invocation) : LambdaInstance :=
  {l with
    pc := if l.sb = none then .creating req false else .unpausing req
    received := l.received ++ [req.id]}

def LambdaInstance.report (l : LambdaInstance) (req : Invocation) (failed : Bool) : LambdaInstance :=
  {l with
    pc := if failed then .waiting else .settling
    forwarded := l.forwarded ++ [req.id]}

-- A request was taken without blocking at the end of the serve loop. The loop
-- goes on only if there still is a sandbox; otherwise `req` goes out of scope.
def LambdaInstance.grab (l : LambdaInstance) (req : Invocation) : LambdaInstance :=
  {l with
    pc := if l.sb = none then .waiting else .forwarding req
    received := l.received ++ [req.id]}

def LambdaInstance.begin (l : LambdaInstance) (sb : Nat) (req : Invocation) : LambdaInstance :=
  {l.call (.create sb) with sb := some sb,pc := .forwarding req}

def LambdaInstance.roundTrip (l : LambdaInstance) (sb : Nat) (req : Invocation) (outcome : RoundTrip) (ms : Nat) :
    Outcome :=
  let done := {req with execMs := if ms = 0 then 1 else ms}
  let sent := {l.call (.forward sb req.id) with pc := .reporting done false}
  match outcome with
  | .badRequest err debug =>
      ⟨{l with pc := .reporting done false},
        [trySendError req 500 ("Could not create NewRequest: " ++ err) (some debug)],none⟩
  | .failed err debug =>
      ⟨{sent.destroySb "Sandbox's HTTP client returned an error" with sb := none},
        [trySendError req 502 ("RoundTrip failed: " ++ err ++ "\n") (some debug)],none⟩
  | .replied status body copyErr =>
      let failure := match copyErr with
        | some (err,debug) => [trySendError req 0 ("reading lambda response failed: " ++ err ++ "\n") (some debug)]
        | none => []
      ⟨sent,⟨req.id,status,body⟩ :: failure,none⟩

-- `fresh` numbers the sandbox that a successful Create returns.
def localStep (zygotes : Bool) (fresh : Nat) (l : LambdaInstance) : Local → Option Outcome
  | .takeKill => match l.pc,l.killChan with
      | .waiting,token :: rest => some ⟨{l with killChan := rest,pc := .killing token},[],none⟩
      | _,_ => none
  | .unpause err => match l.pc,l.sb,err with
      | .unpausing req,some sb,none => some ⟨{l.call (.unpause sb none) with pc := .forwarding req},[],none⟩
      | .unpausing req,some sb,some e =>
          some ⟨{l.call (.unpause sb (some e)) with sb := none,pc := .creating req false},[],none⟩
      | _,_,_ => none
  | .zygoteCreate err => match l.pc with
      | .creating req false =>
          if l.usesZygote zygotes then
            match err with
            | none => some ⟨l.begin fresh req,[],none⟩
            | some _ => some ⟨{l with pc := .creating req true},[],none⟩
          else none
      | _ => none
  | .create err => match l.pc with
      | .creating req tried =>
          if tried || !l.usesZygote zygotes then
            match err with
            | none => some ⟨l.begin fresh req,[],none⟩
            | some e => some ⟨{l with pc := .reporting req true},
                [trySendError req 500 ("could not create Sandbox: " ++ e ++ "\n") none],none⟩
          else none
      | _ => none
  | .roundTrip outcome ms => match l.pc,l.sb with
      | .forwarding req,some sb => some (l.roundTrip sb req outcome ms)
      | _,_ => none
  | .settle => match l.pc with
      | .settling =>
          if l.funcMeta.reuseSandbox then some ⟨{l with pc := .checkingKill},[],none⟩
          else some ⟨{l.destroySb "reuse-sandbox disabled: destroying sandbox after invocation" with
            sb := none,pc := .checkingKill},[],none⟩
      | _ => none
  | .checkKill => match l.pc,l.killChan with
      | .checkingKill,token :: rest => some ⟨{l with killChan := rest,pc := .killing token},[],none⟩
      | .checkingKill,[] => some ⟨{l with pc := .grabbing},[],none⟩
      | _,_ => none
  | .pause err => match l.pc,l.sb with
      | .leaving,some sb =>
          if l.funcMeta.reuseSandbox then
            match err with
            | none => some ⟨{l.call (.pause sb none) with pc := .waiting},[],none⟩
            | some e => some ⟨{l.call (.pause sb (some e)) with sb := none,pc := .waiting},[],none⟩
          else some ⟨l,[],some "sb should be nil when reuse is disabled"⟩
      | _,_ => none
  | .destroy => match l.pc with
      | .killing token =>
          some ⟨{l.destroySb "Lambda instance kill signal received" with pc := .acking token},[],none⟩
      | _ => none

def Pc.req : Pc → Option Invocation
  | .unpausing req | .creating req _ | .forwarding req | .reporting req _ => some req
  | _ => none

def LambdaInstance.hand (l : LambdaInstance) : List Nat := l.pc.req.toList.map (·.id)

theorem hand_of (here : l.pc = pc) : LambdaInstance.hand l = pc.req.toList.map (·.id) := by
  rw [LambdaInstance.hand,here]

theorem accept_hand (l : LambdaInstance) (req : Invocation) : (l.accept req).hand = [req.id] := by
  unfold LambdaInstance.hand LambdaInstance.accept
  dsimp only
  split <;> rfl

theorem report_hand (l : LambdaInstance) (req : Invocation) (failed : Bool) : (l.report req failed).hand = [] := by
  cases failed <;> rfl

theorem grab_hand (l : LambdaInstance) (req : Invocation) :
    (l.grab req).hand = if l.sb = none then [] else [req.id] := by
  unfold LambdaInstance.hand LambdaInstance.grab
  dsimp only
  split <;> rfl

def SameWork (l m : LambdaInstance) : Prop :=
  m.hand = l.hand ∧ m.received = l.received ∧ m.forwarded = l.forwarded

theorem work_of_req (same : m.pc.req = l.pc.req) (received : m.received = l.received)
    (forwarded : m.forwarded = l.forwarded) : SameWork l m :=
  ⟨by simp only [LambdaInstance.hand,same],received,forwarded⟩

theorem destroySb_keeps (l : LambdaInstance) (reason : String) :
    (l.destroySb reason).pc = l.pc ∧ (l.destroySb reason).received = l.received ∧
      (l.destroySb reason).forwarded = l.forwarded := by
  unfold LambdaInstance.destroySb
  split <;> exact ⟨rfl,rfl,rfl⟩

theorem destroySb_work (l : LambdaInstance) (reason : String) (sb : Option Nat) (pc : Pc) (same : pc.req = l.pc.req) :
    SameWork l {l.destroySb reason with sb := sb,pc := pc} := by
  obtain ⟨_,received,forwarded⟩ := destroySb_keeps l reason
  exact work_of_req same received forwarded

theorem roundTrip_work (l : LambdaInstance) (here : l.pc = .forwarding req) (outcome : RoundTrip) :
    SameWork l (l.roundTrip sb req outcome ms).inst := by
  have holds : l.hand = [req.id] := hand_of here
  cases outcome with
  | badRequest err debug => exact ⟨holds.symm,rfl,rfl⟩
  | failed err debug =>
      obtain ⟨there,received,forwarded⟩ := destroySb_keeps {l.call (.forward sb req.id) with
        pc := .reporting {req with execMs := if ms = 0 then 1 else ms} false} "Sandbox's HTTP client returned an error"
      refine ⟨?_,received,forwarded⟩
      rw [holds]
      simp [LambdaInstance.hand,LambdaInstance.roundTrip,there,Pc.req]
  | replied status body copyErr => exact ⟨holds.symm,rfl,rfl⟩

inductive LocalTurn (fresh : Nat) (l : LambdaInstance) : Local → Outcome → Prop where
  | tookKill : l.pc = .waiting → l.killChan = token :: rest →
      LocalTurn fresh l .takeKill ⟨{l with killChan := rest,pc := .killing token},[],none⟩
  | unpaused : l.pc = .unpausing req → l.sb = some sb →
      LocalTurn fresh l (.unpause none) ⟨{l.call (.unpause sb none) with pc := .forwarding req},[],none⟩
  | unpauseFailed : l.pc = .unpausing req → l.sb = some sb →
      LocalTurn fresh l (.unpause (some e))
        ⟨{l.call (.unpause sb (some e)) with sb := none,pc := .creating req false},[],none⟩
  | zygoteCreated : l.pc = .creating req false → LocalTurn fresh l (.zygoteCreate none) ⟨l.begin fresh req,[],none⟩
  | zygoteFailed : l.pc = .creating req false →
      LocalTurn fresh l (.zygoteCreate (some e)) ⟨{l with pc := .creating req true},[],none⟩
  | created : l.pc = .creating req tried → LocalTurn fresh l (.create none) ⟨l.begin fresh req,[],none⟩
  | createFailed : l.pc = .creating req tried →
      LocalTurn fresh l (.create (some e)) ⟨{l with pc := .reporting req true},
        [trySendError req 500 ("could not create Sandbox: " ++ e ++ "\n") none],none⟩
  | tripped : l.pc = .forwarding req → l.sb = some sb →
      LocalTurn fresh l (.roundTrip outcome ms) (l.roundTrip sb req outcome ms)
  | settled : l.pc = .settling → l.funcMeta.reuseSandbox = true →
      LocalTurn fresh l .settle ⟨{l with pc := .checkingKill},[],none⟩
  | discarded : l.pc = .settling → l.funcMeta.reuseSandbox = false →
      LocalTurn fresh l .settle ⟨{l.destroySb "reuse-sandbox disabled: destroying sandbox after invocation" with
        sb := none,pc := .checkingKill},[],none⟩
  | sawKill : l.pc = .checkingKill → l.killChan = token :: rest →
      LocalTurn fresh l .checkKill ⟨{l with killChan := rest,pc := .killing token},[],none⟩
  | sawNone : l.pc = .checkingKill → l.killChan = [] →
      LocalTurn fresh l .checkKill ⟨{l with pc := .grabbing},[],none⟩
  | paused : l.pc = .leaving → l.sb = some sb → l.funcMeta.reuseSandbox = true →
      LocalTurn fresh l (.pause none) ⟨{l.call (.pause sb none) with pc := .waiting},[],none⟩
  | pauseFailed : l.pc = .leaving → l.sb = some sb → l.funcMeta.reuseSandbox = true →
      LocalTurn fresh l (.pause (some e)) ⟨{l.call (.pause sb (some e)) with sb := none,pc := .waiting},[],none⟩
  | pausePanicked : l.pc = .leaving → l.sb = some sb → l.funcMeta.reuseSandbox = false →
      LocalTurn fresh l (.pause err) ⟨l,[],some "sb should be nil when reuse is disabled"⟩
  | destroyed : l.pc = .killing token →
      LocalTurn fresh l .destroy
        ⟨{l.destroySb "Lambda instance kill signal received" with pc := .acking token},[],none⟩

theorem localStep_turn (moved : localStep zygotes fresh l action = some out) : LocalTurn fresh l action out := by
  cases action with
  | takeKill =>
      simp only [localStep] at moved
      split at moved
      · rename_i here waiting
        cases moved
        exact .tookKill here waiting
      · cases moved
  | unpause err =>
      simp only [localStep] at moved
      split at moved
      · rename_i here present
        cases moved
        exact .unpaused here present
      · rename_i here present
        cases moved
        exact .unpauseFailed here present
      · cases moved
  | zygoteCreate err =>
      simp only [localStep] at moved
      split at moved
      · rename_i here
        split at moved
        · split at moved
          · cases moved
            exact .zygoteCreated here
          · cases moved
            exact .zygoteFailed here
        · cases moved
      · cases moved
  | create err =>
      simp only [localStep] at moved
      split at moved
      · rename_i here
        split at moved
        · split at moved
          · cases moved
            exact .created here
          · cases moved
            exact .createFailed here
        · cases moved
      · cases moved
  | roundTrip outcome ms =>
      simp only [localStep] at moved
      split at moved
      · rename_i here present
        cases moved
        exact .tripped here present
      · cases moved
  | settle =>
      simp only [localStep] at moved
      split at moved
      · rename_i here
        split at moved
        · rename_i reuse
          cases moved
          exact .settled here reuse
        · rename_i single
          cases moved
          exact .discarded here (by simpa using single)
      · cases moved
  | checkKill =>
      simp only [localStep] at moved
      split at moved
      · rename_i here waiting
        cases moved
        exact .sawKill here waiting
      · rename_i here empty
        cases moved
        exact .sawNone here empty
      · cases moved
  | pause err =>
      simp only [localStep] at moved
      split at moved
      · rename_i here present
        split at moved
        · rename_i reuse
          split at moved
          · cases moved
            exact .paused here present reuse
          · cases moved
            exact .pauseFailed here present reuse
        · rename_i single
          cases moved
          exact .pausePanicked here present (by simpa using single)
      · cases moved
  | destroy =>
      simp only [localStep] at moved
      split at moved
      · rename_i here
        cases moved
        exact .destroyed here
      · cases moved

theorem localStep_work (moved : localStep zygotes fresh l action = some out) : SameWork l out.inst := by
  cases localStep_turn moved with
  | tripped here present => exact roundTrip_work l here _
  | discarded here single => exact destroySb_work l _ _ _ (by simp [here,Pc.req])
  | destroyed here => exact destroySb_work l _ (l.destroySb _).sb _ (by simp [here,Pc.req])
  | zygoteCreated here | created here => exact work_of_req (by simp [LambdaInstance.begin,here,Pc.req]) rfl rfl
  | pausePanicked => exact work_of_req rfl rfl rfl
  | tookKill here | unpaused here | unpauseFailed here | zygoteFailed here | createFailed here | settled here
  | sawKill here | sawNone here | paused here | pauseFailed here =>
      exact work_of_req (by simp [here,Pc.req]) rfl rfl

end OpenLambda.Lambda
