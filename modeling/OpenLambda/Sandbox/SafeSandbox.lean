import Mathlib.Data.List.Basic
import Mathlib.Data.List.Range

namespace OpenLambda.SafeWrapper

inductive SandboxEventType where
  | evCreate
  | evDestroy
  | evDestroyIgnored
  | evPause
  | evUnpause
  | evFork
  | evChildExit
  deriving DecidableEq, Repr

open SandboxEventType

-- The wrapper's own fields. `dead` is nil or the text of the SandboxDeadError
-- that later calls return; `listening` says whether eventHandlers is set.
structure SafeSandbox where
  paused : Bool
  dead : Option String
  listening : Bool
  deriving DecidableEq, Repr

def newSafeSandbox : SafeSandbox := ⟨false,none,false⟩

def event (sb : SafeSandbox) (evType : SandboxEventType) : List SandboxEventType :=
  if sb.listening then [evType] else []

-- The parts of each method before and after its call on the wrapped sandbox.
-- A method runs under the mutex, but its inner call may take long and may
-- reach other sandboxes, so the two parts are also steps of their own.
def startNotifyingListeners (sb : SafeSandbox) : SafeSandbox × List SandboxEventType :=
  let sb := {sb with listening := true}
  (sb,event sb evCreate)

def died (sb : SafeSandbox) (text : String) : SafeSandbox × List SandboxEventType :=
  let sb := {sb with dead := some text}
  (sb,event sb evDestroy)

def autoKilled (funcName origErr : String) : String :=
  "Sandbox previously killed automatically after " ++ funcName ++ " returned " ++ origErr

def explicitlyKilled (sb : SafeSandbox) (reason : String) : String :=
  "Sandbox previously killed exlicitly by Destroy(reason=" ++ reason ++ ") call while " ++
    (if sb.paused then "paused" else "unpaused")

def idleKilled (reason : String) : String :=
  "Sandbox previously killed exlicitly by DestroyIfPaused(reason=" ++ reason ++ ") call"

def pauseDone (sb : SafeSandbox) : SafeSandbox × List SandboxEventType :=
  ({sb with paused := true},event sb evPause)

def unpauseDone (sb : SafeSandbox) : SafeSandbox := {sb with paused := false}

def childExitDone (sb : SafeSandbox) : List SandboxEventType :=
  if sb.dead = none then event sb evChildExit else []

inductive InnerCall where
  | pause
  | unpause
  | fork
  | childExit
  | destroy (reason : String)
  deriving DecidableEq, Repr

inductive Call where
  | pause (inner : Option String)
  | unpause (inner : Option String)
  | destroy (reason : String)
  | destroyIfPaused (reason : String)
  | fork (inner : Option String)
  | childExit
  deriving DecidableEq, Repr

structure Effect where
  sb : SafeSandbox
  events : List SandboxEventType
  inner : List InnerCall
  err : Option String
  deriving DecidableEq, Repr

def destroyOnErr (sb : SafeSandbox) (funcName origErr : String) (tried : InnerCall)
    (earlier : List SandboxEventType) : Effect :=
  let (after,events) := died sb (autoKilled funcName origErr)
  ⟨after,earlier ++ events,[tried,.destroy (funcName ++ " returned " ++ origErr)],some origErr⟩

def pause (sb : SafeSandbox) (inner : Option String) : Effect :=
  match sb.dead with
  | some text => ⟨sb,[],[],some text⟩
  | none =>
      if sb.paused then ⟨sb,[],[],none⟩
      else match inner with
        | some err => destroyOnErr sb "Pause" err .pause []
        | none => ⟨(pauseDone sb).1,(pauseDone sb).2,[.pause],none⟩

-- EvUnpause is sent before the inner call, so a failing Unpause shows it too.
def unpause (sb : SafeSandbox) (inner : Option String) : Effect :=
  match sb.dead with
  | some text => ⟨sb,[],[],some text⟩
  | none =>
      if sb.paused then
        match inner with
        | some err => destroyOnErr sb "Unpause" err .unpause (event sb evUnpause)
        | none => ⟨unpauseDone sb,event sb evUnpause,[.unpause],none⟩
      else ⟨sb,[],[],none⟩

def destroy (sb : SafeSandbox) (reason : String) : Effect :=
  match sb.dead with
  | some _ => ⟨sb,[],[],none⟩
  | none =>
      let (after,events) := died sb (explicitlyKilled sb reason)
      ⟨after,events,[.destroy reason],none⟩

def destroyIfPaused (sb : SafeSandbox) (reason : String) : Effect :=
  match sb.dead with
  | some _ => ⟨sb,[],[],none⟩
  | none =>
      if sb.paused then
        let (after,events) := died sb (idleKilled reason)
        ⟨after,events,[.destroy reason],none⟩
      else ⟨sb,event sb evDestroyIgnored,[],none⟩

def fork (sb : SafeSandbox) (inner : Option String) : Effect :=
  match sb.dead with
  | some text => ⟨sb,[],[],some text⟩
  | none =>
      match inner with
      | some err => ⟨sb,[],[.fork],some err⟩
      | none => ⟨sb,event sb evFork,[.fork],none⟩

-- A dead sandbox still passes childExit on, it only stops telling listeners.
def childExit (sb : SafeSandbox) : Effect := ⟨sb,childExitDone sb,[.childExit],none⟩

def perform (sb : SafeSandbox) : Call → Effect
  | .pause inner => pause sb inner
  | .unpause inner => unpause sb inner
  | .destroy reason => destroy sb reason
  | .destroyIfPaused reason => destroyIfPaused sb reason
  | .fork inner => fork sb inner
  | .childExit => childExit sb

structure Session where
  sb : SafeSandbox
  events : List SandboxEventType
  inner : List InnerCall
  deriving DecidableEq, Repr

def Session.call (s : Session) (call : Call) : Session :=
  let effect := perform s.sb call
  ⟨effect.sb,s.events ++ effect.events,s.inner ++ effect.inner⟩

def started : Session :=
  let (sb,events) := startNotifyingListeners newSafeSandbox
  ⟨sb,events,[]⟩

def session (calls : List Call) : Session := calls.foldl Session.call started

def isPauseEvent : SandboxEventType → Bool
  | evPause | evUnpause => true
  | _ => false

def alternation (n : Nat) : List SandboxEventType :=
  (List.range n).map fun k => if k % 2 = 0 then evPause else evUnpause

theorem alternation_succ (n : Nat) :
    alternation (n+1) = alternation n ++ [if n % 2 = 0 then evPause else evUnpause] := by
  simp [alternation,List.range_succ]

-- The listener contract: EvCreate first and only first, EvDestroy at most once
-- and last (so no EvChildExit follows it), pauses and unpauses alternating.
structure Contract (events : List SandboxEventType) : Prop where
  created : ∃ rest, events = evCreate :: rest ∧ evCreate ∉ rest
  destroyed : ∀ before after, events = before ++ evDestroy :: after → evDestroy ∉ before ∧ after = []
  alternating : ∃ n, events.filter isPauseEvent = alternation n

-- `shown` is the paused state the listeners believe in. It differs from
-- `sb.paused` only while an Unpause is under way.
structure Tracks (sb : SafeSandbox) (shown : Bool) (events : List SandboxEventType) : Prop where
  silent : sb.listening = false → events = []
  created : sb.listening = true → ∃ rest, events = evCreate :: rest ∧ evCreate ∉ rest
  alive : sb.dead = none → evDestroy ∉ events
  killed : sb.dead ≠ none → sb.listening = true → ∃ before, events = before ++ [evDestroy] ∧ evDestroy ∉ before
  alternating : ∃ n, events.filter isPauseEvent = alternation n ∧
    (sb.listening = true → sb.dead = none → (n % 2 = 1 ↔ shown = true))

theorem started_tracks : Tracks started.sb started.sb.paused started.events := by
  refine ⟨by decide,fun _ => ⟨[],rfl,by simp⟩,by decide,fun dead => absurd rfl dead,⟨0,rfl,?_⟩⟩
  decide

@[simp] theorem event_silent {sb : SafeSandbox} (silent : sb.listening = false) : event sb ev = [] := by
  simp [event,silent]

@[simp] theorem event_heard {sb : SafeSandbox} (heard : sb.listening = true) : event sb ev = [ev] := by
  simp [event,heard]

theorem Tracks.congr {sb : SafeSandbox} (tracks : Tracks sb shown events) (other : SafeSandbox)
    (listening : other.listening = sb.listening) (dead : other.dead = sb.dead) : Tracks other shown events := by
  obtain ⟨silent,created,alive,killed,alternating⟩ := tracks
  rw [← listening] at silent created killed alternating
  rw [← dead] at alive killed alternating
  exact ⟨silent,created,alive,killed,alternating⟩

theorem Tracks.unheard {sb : SafeSandbox} (tracks : Tracks sb shown events) (silent : sb.listening = false) :
    Tracks sb other events := by
  obtain ⟨n,same,_⟩ := tracks.alternating
  exact ⟨tracks.silent,tracks.created,tracks.alive,tracks.killed,n,same,by simp [silent]⟩

theorem fresh_tracks : Tracks newSafeSandbox shown [] :=
  ⟨fun _ => rfl,by simp [newSafeSandbox],by simp,by simp [newSafeSandbox],0,rfl,by simp [newSafeSandbox]⟩

theorem Tracks.start {sb : SafeSandbox} (tracks : Tracks sb shown events) (silent : sb.listening = false)
    (alive : sb.dead = none) :
    Tracks (startNotifyingListeners sb).1 false (events ++ (startNotifyingListeners sb).2) := by
  rw [tracks.silent silent]
  refine ⟨?_,fun _ => ⟨[],rfl,by simp⟩,fun _ => ?_,fun dead => absurd alive dead,0,rfl,by simp⟩
  · simp [startNotifyingListeners]
  · simp [startNotifyingListeners]

theorem Tracks.emit {sb : SafeSandbox} (tracks : Tracks sb shown events) (alive : sb.dead = none)
    (first : ev ≠ evCreate) (last : ev ≠ evDestroy)
    (parity : ∀ n, (n % 2 = 1 ↔ shown = true) → ∃ m, alternation n ++ [ev].filter isPauseEvent = alternation m ∧
      (m % 2 = 1 ↔ next = true)) :
    Tracks sb next (events ++ event sb ev) := by
  cases heard : sb.listening with
  | false => simpa [heard] using tracks.unheard heard
  | true =>
      obtain ⟨rest,same,once⟩ := tracks.created heard
      obtain ⟨n,pauses,believed⟩ := tracks.alternating
      obtain ⟨m,longer,after⟩ := parity n (believed heard alive)
      rw [event_heard heard]
      refine ⟨by simp [heard],fun _ => ⟨rest ++ [ev],by simp [same],?_⟩,?_,fun dead => absurd alive dead,m,?_,fun _ _ => after⟩
      · simpa [once] using first.symm
      · intro _
        simpa [tracks.alive alive] using last.symm
      · rw [List.filter_append,pauses,longer]

theorem Tracks.emit_other {sb : SafeSandbox} (tracks : Tracks sb shown events) (alive : sb.dead = none)
    (first : ev ≠ evCreate) (last : ev ≠ evDestroy) (other : isPauseEvent ev = false) :
    Tracks sb shown (events ++ event sb ev) :=
  tracks.emit alive first last fun n believed => ⟨n,by simp [other],believed⟩

theorem Tracks.emit_pause {sb : SafeSandbox} (tracks : Tracks sb false events) (alive : sb.dead = none) :
    Tracks sb true (events ++ event sb evPause) := by
  refine tracks.emit alive (by decide) (by decide) fun n believed => ⟨n+1,?_,?_⟩
  · have even : n % 2 = 0 := by simp at believed; omega
    simp [alternation_succ,even,isPauseEvent]
  · simp at believed ⊢; omega

theorem Tracks.emit_unpause {sb : SafeSandbox} (tracks : Tracks sb true events) (alive : sb.dead = none) :
    Tracks sb false (events ++ event sb evUnpause) := by
  refine tracks.emit alive (by decide) (by decide) fun n believed => ⟨n+1,?_,?_⟩
  · have odd : n % 2 = 1 := by simpa using believed
    simp [alternation_succ,odd,isPauseEvent]
  · simp at believed ⊢; omega

theorem Tracks.emit_destroy {sb : SafeSandbox} (tracks : Tracks sb shown events) (alive : sb.dead = none) :
    Tracks (died sb text).1 next (events ++ (died sb text).2) := by
  cases heard : sb.listening with
  | false =>
      have unheard : (died sb text).1.listening = false := heard
      have quiet : (died sb text).2 = [] := event_silent unheard
      rw [quiet,tracks.silent heard]
      refine ⟨fun _ => rfl,by simp [unheard],by simp,by simp [unheard],0,rfl,by simp [unheard]⟩
  | true =>
      have told : (died sb text).2 = [evDestroy] := event_heard heard
      obtain ⟨rest,same,once⟩ := tracks.created heard
      obtain ⟨n,pauses,_⟩ := tracks.alternating
      rw [told]
      refine ⟨?_,fun _ => ⟨rest ++ [evDestroy],by simp [same],by simpa using once⟩,by simp [died],
        fun _ _ => ⟨events,rfl,tracks.alive alive⟩,n,?_,by simp [died]⟩
      · simp [died,heard]
      · rw [List.filter_append,pauses]
        simp [isPauseEvent]

theorem Tracks.emit_childExit {sb : SafeSandbox} (tracks : Tracks sb shown events) :
    Tracks sb shown (events ++ childExitDone sb) := by
  unfold childExitDone
  split
  · rename_i alive
    exact tracks.emit_other alive (by decide) (by decide) rfl
  · simpa using tracks

theorem Tracks.contract {sb : SafeSandbox} (tracks : Tracks sb shown events) (heard : sb.listening = true) :
    Contract events := by
  obtain ⟨n,same,_⟩ := tracks.alternating
  refine ⟨tracks.created heard,?_,n,same⟩
  intro before after split
  cases dead : sb.dead with
  | none => exact absurd (by simp [split]) (tracks.alive dead)
  | some text =>
      obtain ⟨whole,last,once⟩ := tracks.killed (by simp [dead]) heard
      rcases List.eq_nil_or_concat after with rfl | ⟨middle,final,rfl⟩
      · rw [last] at split
        obtain ⟨rfl,_⟩ := List.append_inj' split rfl
        exact ⟨once,rfl⟩
      · have regrouped : whole ++ [evDestroy] = (before ++ evDestroy :: middle) ++ [final] := by
          rw [← last,split]; simp
        obtain ⟨rfl,_⟩ := List.append_inj' regrouped rfl
        exact absurd (by simp) once

structure InnerTracks (sb : SafeSandbox) (inner : List InnerCall) : Prop where
  alive : sb.dead = none → ∀ reason, InnerCall.destroy reason ∉ inner
  killed : sb.dead ≠ none → ∃ before reason after, inner = before ++ .destroy reason :: after ∧
    (∀ other, InnerCall.destroy other ∉ before) ∧ ∀ call ∈ after, call = .childExit

theorem InnerTracks.quiet {inner : List InnerCall} {sb next : SafeSandbox} (tracks : InnerTracks sb inner)
    (more : List InnerCall) (alive : sb.dead = none) (still : next.dead = none)
    (harmless : ∀ call ∈ more, ∀ reason, call ≠ InnerCall.destroy reason) :
    InnerTracks next (inner ++ more) := by
  refine ⟨?_,fun dead => absurd still dead⟩
  intro _ reason present
  rcases List.mem_append.mp present with old | new
  · exact tracks.alive alive reason old
  · exact harmless _ new reason rfl

theorem InnerTracks.destroy {inner : List InnerCall} {sb next : SafeSandbox} (tracks : InnerTracks sb inner)
    (alive : sb.dead = none) (dead : next.dead = some text) (harmless : ∀ call ∈ tried, ∀ other, call ≠ InnerCall.destroy other) :
    InnerTracks next (inner ++ (tried ++ [.destroy reason])) := by
  refine ⟨fun none => by simp [dead] at none,fun _ => ⟨inner ++ tried,reason,[],by simp,?_,by simp⟩⟩
  intro other present
  rcases List.mem_append.mp present with old | new
  · exact tracks.alive alive other old
  · exact harmless _ new other rfl

theorem InnerTracks.childExit {inner : List InnerCall} {sb : SafeSandbox} (tracks : InnerTracks sb inner) :
    InnerTracks sb (inner ++ [.childExit]) := by
  refine ⟨?_,?_⟩
  · intro alive reason
    simpa using tracks.alive alive reason
  · intro dead
    obtain ⟨before,reason,after,same,once,rest⟩ := tracks.killed dead
    refine ⟨before,reason,after ++ [.childExit],by simp [same],once,?_⟩
    intro call present
    rcases List.mem_append.mp present with old | new
    · exact rest call old
    · exact List.mem_singleton.mp new

structure Obeys (s : Session) : Prop where
  heard : s.sb.listening = true
  events : Tracks s.sb s.sb.paused s.events
  inner : InnerTracks s.sb s.inner

theorem started_obeys : Obeys started :=
  ⟨rfl,started_tracks,by simp [started],fun dead => absurd rfl dead⟩

theorem obeys_unchanged {s : Session} (obeys : Obeys s) : Obeys ⟨s.sb,s.events ++ [],s.inner ++ []⟩ := by
  simpa using obeys

theorem split_once {front before rest after : List InnerCall}
    (once : ∀ other, InnerCall.destroy other ∉ front) (later : ∀ call ∈ rest, call = InnerCall.childExit)
    (same : front ++ .destroy first :: rest = before ++ .destroy reason :: after) :
    before = front ∧ reason = first ∧ after = rest := by
  rcases List.append_eq_append_iff.mp same with ⟨gap,head,tail⟩ | ⟨gap,head,tail⟩
  · cases gap with
    | nil =>
        simp at head tail
        exact ⟨head,tail.1.symm,tail.2.symm⟩
    | cons call gap =>
        simp only [List.cons_append,List.cons.injEq] at tail
        have late := later (.destroy reason) (by simp [tail.2])
        cases late
  · cases gap with
    | nil =>
        simp at head tail
        exact ⟨head.symm,tail.1,tail.2⟩
    | cons call gap =>
        simp only [List.cons_append,List.cons.injEq] at tail
        exact absurd (by simp [head,← tail.1]) (once reason)

theorem obeys_died {s : Session} (obeys : Obeys s) (tried : List InnerCall) (alive : s.sb.dead = none)
    (seen : Tracks s.sb shown (s.events ++ earlier)) (harmless : ∀ call ∈ tried, ∀ other, call ≠ InnerCall.destroy other) :
    Obeys ⟨(died s.sb text).1,s.events ++ (earlier ++ (died s.sb text).2),s.inner ++ (tried ++ [.destroy reason])⟩ := by
  refine ⟨obeys.heard,?_,obeys.inner.destroy alive rfl harmless⟩
  rw [← List.append_assoc]
  exact seen.emit_destroy alive

theorem pause_obeys {s : Session} (obeys : Obeys s) (inner : Option String) : Obeys (s.call (.pause inner)) := by
  unfold Session.call perform pause
  cases dead : s.sb.dead with
  | some text => exact obeys_unchanged obeys
  | none =>
      cases paused : s.sb.paused with
      | true => simpa [paused] using obeys_unchanged obeys
      | false =>
          cases inner with
          | some err =>
              have seen : Tracks s.sb s.sb.paused (s.events ++ []) := by simpa using obeys.events
              simpa [paused,destroyOnErr] using obeys_died obeys [.pause] dead seen (by simp)
          | none =>
              have seen := obeys.events
              rw [paused] at seen
              have after := (seen.emit_pause dead).congr {s.sb with paused := true} rfl rfl
              exact ⟨obeys.heard,after,obeys.inner.quiet [.pause] dead dead (by simp)⟩

theorem unpause_obeys {s : Session} (obeys : Obeys s) (inner : Option String) : Obeys (s.call (.unpause inner)) := by
  unfold Session.call perform unpause
  cases dead : s.sb.dead with
  | some text => exact obeys_unchanged obeys
  | none =>
      cases paused : s.sb.paused with
      | false => simpa [paused] using obeys_unchanged obeys
      | true =>
          have seen := obeys.events
          rw [paused] at seen
          have told := seen.emit_unpause dead
          cases inner with
          | some err => simpa [paused,destroyOnErr] using obeys_died obeys [.unpause] dead told (by simp)
          | none =>
              exact ⟨obeys.heard,told.congr (unpauseDone s.sb) rfl rfl,obeys.inner.quiet [.unpause] dead dead (by simp)⟩

theorem destroy_obeys {s : Session} (obeys : Obeys s) (reason : String) : Obeys (s.call (.destroy reason)) := by
  unfold Session.call perform destroy
  cases dead : s.sb.dead with
  | some text => exact obeys_unchanged obeys
  | none =>
      have seen : Tracks s.sb s.sb.paused (s.events ++ []) := by simpa using obeys.events
      exact obeys_died obeys [] dead seen (by simp)

theorem destroyIfPaused_obeys {s : Session} (obeys : Obeys s) (reason : String) :
    Obeys (s.call (.destroyIfPaused reason)) := by
  unfold Session.call perform destroyIfPaused
  cases dead : s.sb.dead with
  | some text => exact obeys_unchanged obeys
  | none =>
      cases paused : s.sb.paused with
      | true =>
          have seen : Tracks s.sb s.sb.paused (s.events ++ []) := by simpa using obeys.events
          simpa [paused] using obeys_died obeys [] dead seen (by simp)
      | false =>
          have told := obeys.events.emit_other dead (by decide : evDestroyIgnored ≠ evCreate) (by decide) rfl
          have after : Obeys ⟨s.sb,s.events ++ event s.sb evDestroyIgnored,s.inner⟩ := ⟨obeys.heard,told,obeys.inner⟩
          simpa [paused] using after

theorem fork_obeys {s : Session} (obeys : Obeys s) (inner : Option String) : Obeys (s.call (.fork inner)) := by
  unfold Session.call perform fork
  cases dead : s.sb.dead with
  | some text => exact obeys_unchanged obeys
  | none =>
      have forked : InnerTracks s.sb (s.inner ++ [.fork]) := obeys.inner.quiet [.fork] dead dead (by simp)
      cases inner with
      | some err => exact ⟨obeys.heard,by simpa using obeys.events,forked⟩
      | none => exact ⟨obeys.heard,obeys.events.emit_other dead (by decide) (by decide) rfl,forked⟩

theorem childExit_obeys {s : Session} (obeys : Obeys s) : Obeys (s.call .childExit) :=
  ⟨obeys.heard,obeys.events.emit_childExit,obeys.inner.childExit⟩

theorem call_obeys {s : Session} (obeys : Obeys s) (call : Call) : Obeys (s.call call) := by
  cases call with
  | pause inner => exact pause_obeys obeys inner
  | unpause inner => exact unpause_obeys obeys inner
  | destroy reason => exact destroy_obeys obeys reason
  | destroyIfPaused reason => exact destroyIfPaused_obeys obeys reason
  | fork inner => exact fork_obeys obeys inner
  | childExit => exact childExit_obeys obeys

theorem session_obeys (calls : List Call) : Obeys (session calls) := by
  induction calls using List.reverseRecOn with
  | nil => exact started_obeys
  | append_singleton calls call ih =>
      simp only [session,List.foldl_append,List.foldl_cons,List.foldl_nil]
      exact call_obeys ih call

def fallible : Call → Bool
  | .pause _ | .unpause _ | .fork _ => true
  | _ => false

theorem dead_refuses {sb : SafeSandbox} (dead : sb.dead = some text) (call : Call) (mayFail : fallible call = true) :
    (perform sb call).err = some text := by
  cases call with
  | pause inner => simp [perform,pause,dead]
  | unpause inner => simp [perform,unpause,dead]
  | fork inner => simp [perform,fork,dead]
  | destroy reason => cases mayFail
  | destroyIfPaused reason => cases mayFail
  | childExit => cases mayFail

theorem session_contract (calls : List Call) :
    Contract (session calls).events ∧
      (∀ before reason after, (session calls).inner = before ++ .destroy reason :: after →
        (∀ other, InnerCall.destroy other ∉ before) ∧ ∀ call ∈ after, call = .childExit) ∧
      ∀ reason, .destroy reason ∈ (session calls).inner → ∃ text, (session calls).sb.dead = some text ∧
        ∀ call, fallible call = true → (perform (session calls).sb call).err = some text := by
  have obeys := session_obeys calls
  refine ⟨obeys.events.contract obeys.heard,?_,?_⟩
  · intro before reason after split
    have dead : (session calls).sb.dead ≠ none := fun alive => obeys.inner.alive alive reason (by simp [split])
    obtain ⟨front,first,rest,same,once,later⟩ := obeys.inner.killed dead
    rw [same] at split
    obtain ⟨rfl,rfl,rfl⟩ := split_once once later split
    exact ⟨once,later⟩
  · intro reason present
    cases dead : (session calls).sb.dead with
    | none => exact absurd present (obeys.inner.alive dead reason)
    | some text => exact ⟨text,rfl,fun call mayFail => dead_refuses dead call mayFail⟩

end OpenLambda.SafeWrapper
