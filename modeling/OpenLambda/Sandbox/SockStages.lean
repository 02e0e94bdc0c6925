import OpenLambda.Sandbox.SockContainer

namespace OpenLambda.SockContainer
open SafeWrapper SandboxEventType

def Box.intact (b : Box) : Prop := b.cgReleased = 0 ∧ b.memReleased = 0 ∧ b.rootReleased = 0 ∧ b.exitCalls = 0

def Box.spent (b : Box) : Prop :=
  b.cgReleased = 1 ∧ b.memReleased = 1 ∧ b.rootReleased = 1 ∧ b.exitCalls = if b.parent = none then 0 else 1

def Releases (b : Box) : Prop :=
  match b.op with
  | .kill _ => b.cgRefCount = 0 ∧ b.intact
  | .memSend _ (.releaseCredit _) | .memWait _ (.releaseCredit _) =>
      b.cgRefCount = 0 ∧ b.cgReleased = 1 ∧ b.memReleased = 0 ∧ b.rootReleased = 0 ∧ b.exitCalls = 0
  | .removeRoot _ => b.cgRefCount = 0 ∧ b.cgReleased = 1 ∧ b.memReleased = 1 ∧ b.rootReleased = 0 ∧ b.exitCalls = 0
  | .exitCall _ =>
      b.parent ≠ none ∧ b.cgRefCount = 0 ∧ b.cgReleased = 1 ∧ b.memReleased = 1 ∧ b.rootReleased = 1 ∧ b.exitCalls = 0
  | .exitWait _ =>
      b.parent ≠ none ∧ b.cgRefCount = 0 ∧ b.cgReleased = 1 ∧ b.memReleased = 1 ∧ b.rootReleased = 1 ∧ b.exitCalls = 1
  | _ => (0 < b.cgRefCount ∧ b.intact) ∨ (b.cgRefCount = 0 ∧ b.spent)

def Box.young (b : Box) : Prop := b.safe = newSafeSandbox ∧ b.destroyed = false

def Box.busy (b : Box) : Prop := b.safe.dead = none ∧ b.safe.listening = true ∧ b.destroyed = false

def Box.falling (b : Box) (after : After) : Prop :=
  match after with
  | .childExit _ => b.safe.listening = true ∧ (b.destroyed = true ↔ b.safe.dead ≠ none)
  | _ => b.safe.dead = none ∧ b.destroyed = true

def Lives (b : Box) : Prop :=
  match b.op with
  | .memSend _ .create | .memWait _ .create | .acquireCg | .setup | .startProc | .forkWait | .forked =>
      b.young ∧ b.parent = none
  | .connect => b.young
  | .idle => b.destroyed = true ↔ b.safe.dead ≠ none
  | .memSend _ .pauseCredit | .memWait _ .pauseCredit | .pauseEnd => b.busy ∧ b.safe.paused = false
  | .memSend _ .unpauseDebit | .memWait _ .unpauseDebit | .raise _ | .thaw => b.busy ∧ b.safe.paused = true
  | .forking _ => b.busy
  | .freeze after => after.own = true ∧ b.safe.dead = none ∧ b.destroyed = false
  | .decRef (.childExit _) => b.safe.listening = true ∧ (b.destroyed = true ↔ b.safe.dead ≠ none)
  | .decRef _ => b.safe.dead = none ∧ b.destroyed = false
  | .memSend _ (.releaseCredit after) | .memWait _ (.releaseCredit after) | .kill after | .removeRoot after
  | .exitCall after | .exitWait after | .returned after => b.falling after
  | .discarded => b.safe.dead = none ∧ b.destroyed = true

def Amounts (conf : Conf) (b : Box) : Prop :=
  match b.op with
  | .memSend mb .create | .memWait mb .create => b.cg = none ∧ mb = -b.memLimitMB
  | .acquireCg => b.cg = none
  | .memSend mb .unpauseDebit | .memWait mb .unpauseDebit | .raise mb => b.cg = some (mb + conf.memMB)
  | .memSend mb (.releaseCredit _) | .memWait mb (.releaseCredit _) => b.cg = some mb
  | _ => b.cg ≠ none

-- The references a container certainly still has: its own, and the one that
-- the childExit under way is about to give back.
def Box.floor (b : Box) : Int :=
  (bif b.destroyed then 0 else 1) + (match b.op with | .decRef (.childExit _) => 1 | _ => 0)

structure BoxOK (conf : Conf) (b : Box) : Prop where
  releases : Releases b
  lives : Lives b
  amounts : Amounts conf b

theorem newBox_ok (conf : Conf) (createParent : Option Nat) (memLimitMB : Int) :
    BoxOK conf (newBox conf createParent memLimitMB) := by
  refine ⟨?_,?_,?_⟩
  · simp [Releases,newBox,Box.intact]
  · simp [Lives,newBox,Box.young]
  · simp [Amounts,newBox]

theorem alive_of_idle {b : Box} (lives : b.destroyed = true ↔ b.safe.dead ≠ none) (alive : b.safe.dead = none) :
    b.destroyed = false := by
  cases destroyed : b.destroyed with
  | false => rfl
  | true => exact absurd alive (lives.mp destroyed)

theorem young_dead {b : Box} (young : b.young) : b.safe.dead = none := by rw [young.1]; rfl

theorem goto_ok {b : Box} (ok : BoxOK conf b) (step : Goto b op) : BoxOK conf {b with op := op} := by
  obtain ⟨releases,lives,amounts⟩ := ok
  cases step with
  | setupDone here =>
      simp only [Releases,Lives,Amounts,here] at releases lives amounts
      exact ⟨releases,lives,amounts⟩
  | setupFailed here =>
      simp only [Releases,Lives,Amounts,here] at releases lives amounts
      exact ⟨releases,⟨rfl,young_dead lives.1,lives.1.2⟩,amounts⟩
  | freshDone here =>
      simp only [Releases,Lives,Amounts,here] at releases lives amounts
      exact ⟨releases,lives.1,amounts⟩
  | createFailed here =>
      rcases here with here | here
      · simp only [Releases,Lives,Amounts,here] at releases lives amounts
        exact ⟨releases,⟨rfl,young_dead lives.1,lives.1.2⟩,amounts⟩
      · simp only [Releases,Lives,Amounts,here] at releases lives amounts
        exact ⟨releases,⟨rfl,young_dead lives,lives.2⟩,amounts⟩
  | destroyed here alive =>
      simp only [Releases,Lives,Amounts,here] at releases lives amounts
      exact ⟨releases,⟨rfl,alive,alive_of_idle lives alive⟩,amounts⟩
  | pauseKept here alive heard running =>
      simp only [Releases,Lives,Amounts,here] at releases lives amounts
      exact ⟨releases,⟨⟨alive,heard,alive_of_idle lives alive⟩,running⟩,amounts⟩
  | thawFailed here =>
      simp only [Releases,Lives,Amounts,here] at releases lives amounts
      exact ⟨releases,⟨rfl,lives.1.1,lives.1.2.2⟩,amounts⟩
  | @frozen after here =>
      simp only [Releases,Lives,Amounts,here] at releases lives amounts
      refine ⟨releases,?_,amounts⟩
      cases after with
      | childExit child => cases lives.1
      | destroy text => exact lives.2
      | discard => exact lives.2
  | gone here =>
      simp only [Releases,Lives,Amounts,here] at releases lives amounts
      exact ⟨releases,lives,amounts⟩

-- A reference is dropped only where one is left, so the count stays natural
-- and the release starts exactly when it reaches zero.
theorem decCgRefCount_ok {b : Box} (ok : BoxOK conf b) (here : b.op = .decRef after) (low : b.floor ≤ b.cgRefCount) :
    BoxOK conf (b.decCgRefCount after).box ∧ (b.decCgRefCount after).fault = none ∧ 0 < b.cgRefCount := by
  obtain ⟨releases,lives,amounts⟩ := ok
  simp only [Releases,Lives,Amounts,here] at releases lives amounts
  have positive : 0 < b.cgRefCount := by
    cases after with
    | childExit child =>
        cases gone : b.destroyed <;> simp [Box.floor,here,gone] at low <;> omega
    | destroy text =>
        simp only [Box.floor,here,lives.2] at low
        simp at low
        omega
    | discard =>
        simp only [Box.floor,here,lives.2] at low
        simp at low
        omega
  have intact : b.intact := by
    rcases releases with ⟨_,intact⟩ | ⟨zero,_⟩
    · exact intact
    · omega
  have after_lives : ({b with destroyed := b.destroyed || after.own} : Box).falling after := by
    cases after with
    | childExit child => simpa [Box.falling,After.own] using lives
    | destroy text => simpa [Box.falling,After.own] using lives.1
    | discard => simpa [Box.falling,After.own] using lives.1
  have kept : ¬ b.cgRefCount - 1 < 0 := by omega
  refine ⟨?_,?_,positive⟩
  · unfold Box.decCgRefCount
    dsimp only
    rw [if_neg kept]
    split
    · rename_i zero
      exact ⟨⟨zero,intact⟩,after_lives,amounts⟩
    · exact ⟨.inl ⟨by simp only; omega,intact⟩,after_lives,amounts⟩
  · unfold Box.decCgRefCount
    dsimp only
    rw [if_neg kept]
    split <;> rfl

theorem killAndRelease_ok {b : Box} (ok : BoxOK conf b) (here : b.op = .kill after) :
    BoxOK conf (b.killAndRelease after) := by
  obtain ⟨releases,lives,amounts⟩ := ok
  simp only [Releases,Lives,Amounts,here] at releases lives amounts
  obtain ⟨zero,cg,mem,root,exits⟩ := releases
  unfold Box.killAndRelease
  split
  · rename_i limit got
    exact ⟨⟨zero,by simp [cg],mem,root,exits⟩,lives,got⟩
  · rename_i none
    exact absurd none amounts

theorem removeRoot_ok {b : Box} (ok : BoxOK conf b) (here : b.op = .removeRoot after) :
    BoxOK conf (b.removeRoot after) := by
  obtain ⟨releases,lives,amounts⟩ := ok
  simp only [Releases,Lives,Amounts,here] at releases lives amounts
  obtain ⟨zero,cg,mem,root,exits⟩ := releases
  unfold Box.removeRoot
  split
  · rename_i orphan
    exact ⟨.inr ⟨zero,cg,mem,by simp [root],by simp [orphan,exits]⟩,lives,amounts⟩
  · rename_i child
    exact ⟨⟨child,zero,cg,mem,by simp [root],exits⟩,lives,amounts⟩

theorem localStep_ok {b : Box} (ok : BoxOK conf b) (low : b.floor ≤ b.cgRefCount) (step : LocalStep conf b out) :
    BoxOK conf out.box := by
  obtain ⟨releases,lives,amounts⟩ := ok
  cases step with
  | goto move => exact goto_ok ⟨releases,lives,amounts⟩ move
  | ignored here => exact ⟨releases,lives,amounts⟩
  | getCg here =>
      simp only [Releases,Lives,Amounts,here] at releases lives amounts
      exact ⟨releases,lives,by simp [Amounts]⟩
  | setParent here =>
      simp only [Releases,Lives,Amounts,here] at releases lives amounts
      refine ⟨?_,lives.1,amounts⟩
      -- a container whose own reference is still held has released nothing
      rcases releases with intact | ⟨zero,_⟩
      · exact .inl intact
      · simp [Box.floor,here,lives.1.2,zero] at low
  | connected here =>
      simp only [Releases,Lives,Amounts,here] at releases lives amounts
      refine ⟨releases,?_,amounts⟩
      have dead := young_dead lives
      simp [Lives,Box.unlock,startNotifyingListeners,dead,lives.2]
  | downsized here alive heard running smaller positive =>
      simp only [Releases,Lives,Amounts,here] at releases lives amounts
      exact ⟨releases,⟨⟨alive,heard,alive_of_idle lives alive⟩,running⟩,by simp [Amounts]⟩
  | paused here =>
      simp only [Releases,Lives,Amounts,here] at releases lives amounts
      refine ⟨releases,?_,amounts⟩
      simp [Lives,Box.unlock,pauseDone,lives.1.1,lives.1.2.2]
  | unpause here alive heard paused next =>
      simp only [Releases,Lives,Amounts,here] at releases lives amounts
      rcases next with rfl | rfl
      · refine ⟨releases,⟨⟨alive,heard,alive_of_idle lives alive⟩,paused⟩,?_⟩
        obtain ⟨limit,got⟩ := Option.ne_none_iff_exists'.mp amounts
        simp [Amounts,Box.getMemLimitMB,got]
      · exact ⟨releases,⟨⟨alive,heard,alive_of_idle lives alive⟩,paused⟩,amounts⟩
  | raise here =>
      simp only [Releases,Lives,Amounts,here] at releases lives amounts
      exact ⟨releases,lives,by simp [Amounts]⟩
  | thawed here =>
      simp only [Releases,Lives,Amounts,here] at releases lives amounts
      refine ⟨releases,?_,amounts⟩
      simp [Lives,Box.unlock,unpauseDone,lives.1.1,lives.1.2.2]
  | destroyIgnored here alive running => exact ⟨releases,lives,amounts⟩
  | freezePanic here => exact ⟨releases,lives,amounts⟩
  | decRef here => exact (decCgRefCount_ok ⟨releases,lives,amounts⟩ here low).1
  | kill here => exact killAndRelease_ok ⟨releases,lives,amounts⟩ here
  | removeRoot here => exact removeRoot_ok ⟨releases,lives,amounts⟩ here
  | finish here =>
      simp only [Releases,Lives,Amounts,here] at releases lives amounts
      refine ⟨releases,?_,amounts⟩
      simp [Lives,Box.unlock,died,lives.2]

end OpenLambda.SockContainer
