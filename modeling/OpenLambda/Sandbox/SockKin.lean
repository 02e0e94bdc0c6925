import OpenLambda.Foundation.Tally
import OpenLambda.Sandbox.SockSystem

namespace OpenLambda.SockContainer
open SafeWrapper SandboxEventType

def Op.after : Op → Option After
  | .memSend _ (.releaseCredit after) | .memWait _ (.releaseCredit after) | .freeze after | .decRef after | .kill after
  | .removeRoot after | .exitCall after | .exitWait after | .returned after => some after
  | _ => none

def Op.exiting (op : Op) : Option Nat :=
  match op.after with
  | some (.childExit child) => some child
  | _ => none

def Op.linked : Op → Bool
  | .forkWait | .forked | .forking _ | .exitWait _ => true
  | _ => false

def Box.forkedFrom (b : Box) (p : Nat) : Prop := b.op = .forked ∧ b.createParent = some p ∨ b.parent = some p

instance (b : Box) (p : Nat) : Decidable (b.forkedFrom p) := by unfold Box.forkedFrom; infer_instance

-- The reference on `p` that a container stands for: taken at the start of the
-- fork, given back by childExit.
def Box.heldOn (b : Box) (p : Nat) : Int :=
  (if b.op = .forkWait ∧ b.createParent = some p then 1 else 0) + (if b.forkedFrom p ∧ b.exitCalls = 0 then 1 else 0)

theorem heldOn_nonneg (b : Box) (p : Nat) : 0 ≤ b.heldOn p := by
  unfold Box.heldOn
  split <;> split <;> omega

def Box.spare (b : Box) : Int := b.cgRefCount - b.floor - b.forkLeaks

-- What the steps of one container leave alone in the eyes of its relatives.
structure Quiet (b c : Box) : Prop where
  createParent : c.createParent = b.createParent
  parent : c.parent = b.parent ∨ b.op = .forked ∧ c.parent = b.createParent
  children : c.children = b.children
  exitCalls : c.exitCalls = b.exitCalls
  leaks : c.forkLeaks = b.forkLeaks
  spare : c.spare = b.spare
  forked : ∀ p, c.forkedFrom p ↔ b.forkedFrom p
  forkWait : c.op = .forkWait ↔ b.op = .forkWait
  forking : ∀ child, c.op = .forking child ↔ b.op = .forking child
  exitWait : ∀ after, c.op = .exitWait after ↔ b.op = .exitWait after
  exiting : ∀ child, c.op.exiting = some child → b.op.exiting = some child
  listening : b.safe.listening = true → c.safe.listening = true

theorem quiet_refl (b : Box) : Quiet b b where
  createParent := rfl
  parent := .inl rfl
  children := rfl
  exitCalls := rfl
  leaks := rfl
  spare := rfl
  forked _ := Iff.rfl
  forkWait := Iff.rfl
  forking _ := Iff.rfl
  exitWait _ := Iff.rfl
  exiting _ := id
  listening := id

theorem quiet_marked {b c : Box} (quiet : Quiet b c) (mark : Option Nat) (hist : List SandboxEventType) :
    Quiet b {c with task := mark,hist := hist} := by
  obtain ⟨made,parent,children,exits,leaks,spare,forked,waits,forking,exitWait,exiting,heard⟩ := quiet
  exact ⟨made,parent,children,exits,leaks,spare,forked,waits,forking,exitWait,exiting,heard⟩

theorem ok_marked {b : Box} (ok : BoxOK conf b) (mark : Option Nat) (hist : List SandboxEventType) :
    BoxOK conf {b with task := mark,hist := hist} := by
  obtain ⟨releases,lives,amounts⟩ := ok
  exact ⟨releases,lives,amounts⟩

theorem unlinked_ne {op : Op} (unlinked : op.linked = false) :
    op ≠ .forkWait ∧ op ≠ .forked ∧ (∀ child, op ≠ .forking child) ∧ ∀ after, op ≠ .exitWait after := by
  cases op <;> simp [Op.linked] at unlinked ⊢

theorem quiet_unlinked {b c : Box} (before : b.op.linked = false) (after : c.op.linked = false)
    (createParent : c.createParent = b.createParent) (parent : c.parent = b.parent) (children : c.children = b.children)
    (exitCalls : c.exitCalls = b.exitCalls) (leaks : c.forkLeaks = b.forkLeaks)
    (count : c.cgRefCount - c.floor = b.cgRefCount - b.floor)
    (exiting : ∀ child, c.op.exiting = some child → b.op.exiting = some child)
    (listening : b.safe.listening = true → c.safe.listening = true) : Quiet b c := by
  obtain ⟨noWait,noFork,noForking,noExit⟩ := unlinked_ne before
  obtain ⟨noWait',noFork',noForking',noExit'⟩ := unlinked_ne after
  refine ⟨createParent,.inl parent,children,exitCalls,leaks,?_,?_,?_,?_,?_,exiting,listening⟩
  · simp [Box.spare,leaks,count]
  · intro p
    simp [Box.forkedFrom,noFork,noFork',parent]
  · simp [noWait,noWait']
  · simp [noForking,noForking']
  · simp [noExit,noExit']

theorem quiet_heldOn {b c : Box} (quiet : Quiet b c) (p : Nat) : c.heldOn p = b.heldOn p := by
  simp only [Box.heldOn,quiet.forkWait,quiet.createParent,quiet.forked,quiet.exitCalls]

theorem floor_of_ne {b : Box} (other : ∀ child, b.op ≠ .decRef (.childExit child)) :
    b.floor = bif b.destroyed then 0 else 1 := by
  simp only [Box.floor,add_zero]

theorem quiet_goto {b c : Box} (before : b.op.linked = false) (after : c.op.linked = false)
    (same : c = {b with cg := c.cg,safe := c.safe,op := c.op,task := c.task})
    (first : ∀ child, b.op ≠ .decRef (.childExit child)) (second : ∀ child, c.op ≠ .decRef (.childExit child))
    (exiting : ∀ child, c.op.exiting = some child → b.op.exiting = some child)
    (listening : b.safe.listening = true → c.safe.listening = true) : Quiet b c := by
  have count : c.cgRefCount - c.floor = b.cgRefCount - b.floor := by
    rw [floor_of_ne first,floor_of_ne second,same]
  refine quiet_unlinked before after ?_ ?_ ?_ ?_ ?_ count exiting listening
  all_goals rw [same]

theorem goto_quiet {b : Box} (lives : Lives b) (step : Goto b op) : Quiet b {b with op := op} := by
  cases step with
  | setupDone here | setupFailed here | freshDone here | destroyed here | pauseKept here | thawFailed here | gone here =>
      apply quiet_goto <;> simp [here,Op.linked,Op.exiting,Op.after]
  | createFailed here =>
      rcases here with here | here <;> apply quiet_goto <;> simp [here,Op.linked,Op.exiting,Op.after]
  | @frozen after here =>
      simp only [Lives,here] at lives
      cases after with
      | childExit child => cases lives.1
      | destroy text => apply quiet_goto <;> simp [here,Op.linked,Op.exiting,Op.after]
      | discard => apply quiet_goto <;> simp [here,Op.linked,Op.exiting,Op.after]

theorem decCgRefCount_quiet {b : Box} (lives : Lives b) (here : b.op = .decRef after) (positive : 0 < b.cgRefCount) :
    Quiet b (b.decCgRefCount after).box := by
  have kept : ¬ b.cgRefCount - 1 < 0 := by omega
  have count : ∀ op : Op, (∀ child, op ≠ .decRef (.childExit child)) →
      b.cgRefCount - 1 - ({b with destroyed := b.destroyed || after.own,op := op} : Box).floor =
        b.cgRefCount - b.floor := by
    intro op other
    rw [floor_of_ne other]
    simp only [Lives,here] at lives
    cases after with
    | childExit child => simp [Box.floor,here,After.own]; omega
    | destroy text => simp [Box.floor,here,After.own,lives.2]
    | discard => simp [Box.floor,here,After.own,lives.2]
  unfold Box.decCgRefCount
  dsimp only
  rw [if_neg kept]
  split
  · refine quiet_unlinked (by rw [here]; rfl) rfl rfl rfl rfl rfl rfl (count (.kill after) (by simp)) ?_ id
    simp [here,Op.exiting,Op.after]
  · refine quiet_unlinked (by rw [here]; rfl) rfl rfl rfl rfl rfl rfl (count (.returned after) (by simp)) ?_ id
    simp [here,Op.exiting,Op.after]

theorem localStep_quiet {b : Box} (ok : BoxOK conf b) (low : b.floor ≤ b.cgRefCount) (step : LocalStep conf b out) :
    Quiet b out.box := by
  have lives := ok.lives
  cases step with
  | goto move => exact goto_quiet lives move
  | ignored here | destroyIgnored here | freezePanic here => exact quiet_refl b
  | getCg here | downsized here | raise here =>
      apply quiet_goto <;> simp [here,Op.linked,Op.exiting,Op.after]
  | unpause here alive heard paused next =>
      rcases next with rfl | rfl <;> apply quiet_goto <;> simp [here,Op.linked,Op.exiting,Op.after]
  | setParent here =>
      simp only [Lives,here] at lives
      refine ⟨rfl,.inr ⟨here,rfl⟩,rfl,rfl,rfl,?_,?_,?_,?_,?_,?_,id⟩
      · simp [Box.spare,Box.floor,here]
      · simp [Box.forkedFrom,here,lives.2]
      all_goals simp [here,Op.exiting,Op.after]
  | connected here | paused here | thawed here | finish here =>
      apply quiet_goto <;>
        simp [here,Op.linked,Op.exiting,Op.after,Box.unlock,startNotifyingListeners,pauseDone,unpauseDone,died]
  | decRef here => exact decCgRefCount_quiet lives here (decCgRefCount_ok ok here low).2.2
  | @kill after here =>
      unfold Box.killAndRelease
      split
      · refine quiet_unlinked (by rw [here]; rfl) rfl rfl rfl rfl rfl rfl ?_ ?_ id
        · simp [Box.floor,here]
        · simp [here,Op.exiting,Op.after]
      · apply quiet_goto <;> simp [here,Op.linked,Op.exiting,Op.after]
  | removeRoot here =>
      refine quiet_unlinked (by rw [here]; rfl) ?_ rfl rfl rfl rfl rfl ?_ ?_ id
      all_goals unfold Box.removeRoot; split <;> simp [here,Op.linked,Op.exiting,Op.after,Box.floor]

theorem resume_quiet (b : Box) : Quiet b b.resume := by
  unfold Box.resume
  split
  · apply quiet_goto <;> simp [*,Op.linked,Op.exiting,Op.after]
  · apply quiet_goto <;> simp [*,Op.linked,Op.exiting,Op.after]
  · apply quiet_goto <;> simp [*,Op.linked,Op.exiting,Op.after]
  · rename_i here
    refine quiet_unlinked (by rw [here]; rfl) rfl rfl rfl rfl rfl rfl ?_ ?_ id
    · simp [Box.floor,here]
    · simp [here,Op.exiting,Op.after]
  · exact quiet_refl b

theorem resume_ok {b : Box} (ok : BoxOK conf b) : BoxOK conf b.resume := by
  obtain ⟨releases,lives,amounts⟩ := ok
  unfold Box.resume
  split
  · rename_i here
    simp only [Releases,Lives,Amounts,here] at releases lives amounts
    exact ⟨releases,lives,amounts.1⟩
  · rename_i here
    simp only [Releases,Lives,Amounts,here] at releases lives amounts
    exact ⟨releases,lives,amounts⟩
  · rename_i here
    simp only [Releases,Lives,Amounts,here] at releases lives amounts
    exact ⟨releases,lives,amounts⟩
  · rename_i here
    simp only [Releases,Lives,Amounts,here] at releases lives amounts
    obtain ⟨zero,cg,mem,root,exits⟩ := releases
    exact ⟨⟨zero,cg,by simp [mem],root,exits⟩,lives,by simp [Amounts,amounts]⟩
  · exact ⟨releases,lives,amounts⟩

theorem memSend_ok {b : Box} (ok : BoxOK conf b) (here : b.op = .memSend mb use) :
    BoxOK conf {b with op := .memWait mb use} := by
  obtain ⟨releases,lives,amounts⟩ := ok
  cases use <;> simp only [Releases,Lives,Amounts,here] at releases lives amounts <;> exact ⟨releases,lives,amounts⟩

theorem memSend_quiet {b : Box} (here : b.op = .memSend mb use) : Quiet b {b with op := .memWait mb use} := by
  cases use <;> apply quiet_goto <;> simp [here,Op.linked,Op.exiting,Op.after]

theorem failCreate_ok {b : Box} (ok : BoxOK conf b) (here : b.op = .startProc ∨ b.op = .forkWait) :
    BoxOK conf (b.failCreate err) := by
  obtain ⟨releases,lives,amounts⟩ := ok
  rcases here with here | here
  all_goals
    simp only [Releases,Lives,Amounts,here] at releases lives amounts
    exact ⟨releases,⟨rfl,young_dead lives.1,lives.1.2⟩,amounts⟩

end OpenLambda.SockContainer
