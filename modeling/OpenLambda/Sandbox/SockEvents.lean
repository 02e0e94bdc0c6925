import OpenLambda.Sandbox.SockRefs

namespace OpenLambda.SockContainer
open SafeWrapper SandboxEventType

def Op.unpausing : Op → Bool
  | .memSend _ .unpauseDebit | .memWait _ .unpauseDebit | .raise _ | .thaw => true
  | _ => false

def Op.dying (op : Op) : Bool :=
  match op.after with
  | some after => after.own
  | none => op == .discarded

-- The paused state that listeners believe in. Once the sandbox is dying it does
-- not matter any more: a failed Unpause has shown its event, a failed Pause not.
def Shows (b : Box) (shown : Bool) : Prop := b.op.dying = false → shown = (b.safe.paused && !b.op.unpausing)

def Heard (b : Box) : Prop := ∃ shown, Shows b shown ∧ Tracks b.safe shown b.hist

theorem heard_kept {b c : Box} (heard : Heard b) (safe : c.safe = b.safe) (hist : c.hist = b.hist)
    (unpausing : c.op.dying = false → c.op.unpausing = b.op.unpausing) (dying : c.op.dying = false → b.op.dying = false) :
    Heard c := by
  obtain ⟨shown,shows,tracks⟩ := heard
  refine ⟨shown,fun alive => ?_,?_⟩
  · rw [safe,unpausing alive]
    exact shows (dying alive)
  · rw [safe,hist]
    exact tracks

theorem heard_parts {b : Box} (heard : Heard b) (alive : b.op.dying = false) :
    Tracks b.safe (b.safe.paused && !b.op.unpausing) b.hist := by
  obtain ⟨shown,shows,tracks⟩ := heard
  rw [← shows alive]
  exact tracks

theorem newBox_heard (conf : Conf) (createParent : Option Nat) (memLimitMB : Int) :
    Heard (newBox conf createParent memLimitMB) := ⟨false,fun _ => rfl,fresh_tracks⟩

theorem goto_heard {b : Box} (heard : Heard b) (step : Goto b op) : Heard {b with op := op} := by
  cases step with
  | createFailed here =>
      rcases here with here | here <;> refine heard_kept heard rfl rfl ?_ ?_ <;> simp [here,Op.dying,Op.after,After.own]
  | @frozen after here =>
      refine heard_kept heard rfl rfl ?_ ?_ <;> simp [here,Op.dying,Op.after,Op.unpausing]
  | setupDone here | setupFailed here | freshDone here | destroyed here | pauseKept here | thawFailed here | gone here =>
      refine heard_kept heard rfl rfl ?_ ?_ <;> simp [here,Op.dying,Op.after,Op.unpausing,After.own]

theorem localStep_heard {b : Box} (ok : BoxOK conf b) (heard : Heard b) (step : LocalStep conf b out) (mark : Option Nat) :
    Heard {out.box with task := mark,hist := out.box.hist ++ out.events} := by
  have lives := ok.lives
  cases step with
  | goto move =>
      have moved := goto_heard heard move
      exact heard_kept moved rfl (by simp) (fun _ => rfl) id
  | ignored here | freezePanic here => exact heard_kept heard rfl (by simp) (fun _ => rfl) id
  | getCg here | downsized here | setParent here =>
      refine heard_kept heard rfl (by simp) ?_ ?_ <;> simp [here,Op.dying,Op.after,Op.unpausing]
  | raise here => refine heard_kept heard rfl (by simp) ?_ ?_ <;> simp [here,Op.dying,Op.after,Op.unpausing]
  | kill here =>
      unfold Box.killAndRelease
      split <;> refine heard_kept heard rfl (by simp) ?_ ?_ <;> simp [here,Op.dying,Op.after,Op.unpausing]
  | removeRoot here =>
      unfold Box.removeRoot
      split <;> refine heard_kept heard rfl (by simp) ?_ ?_ <;> simp [here,Op.dying,Op.after,Op.unpausing]
  | decRef here =>
      unfold Box.decCgRefCount
      dsimp only
      split
      · refine heard_kept heard rfl (by simp) ?_ ?_ <;> simp [here,Op.dying,Op.after,Op.unpausing]
      · split <;> refine heard_kept heard rfl (by simp) ?_ ?_ <;> simp [here,Op.dying,Op.after,Op.unpausing]
  | connected here =>
      simp only [Lives,here] at lives
      obtain ⟨shown,_,tracks⟩ := heard
      refine ⟨false,?_,tracks.start (by rw [lives.1]; rfl) (young_dead lives)⟩
      simp [Shows,Box.unlock,startNotifyingListeners,lives.1,newSafeSandbox]
  | paused here =>
      simp only [Lives,here] at lives
      have tracks := heard_parts heard (by rw [here]; rfl)
      rw [lives.2] at tracks
      exact ⟨true,by simp [Shows,Box.unlock,pauseDone,Op.unpausing],(tracks.emit_pause lives.1.1).congr _ rfl rfl⟩
  | unpause here alive listening paused next =>
      have tracks := heard_parts heard (by rw [here]; rfl)
      rw [paused,here] at tracks
      refine ⟨false,?_,tracks.emit_unpause alive⟩
      rcases next with rfl | rfl <;> simp [Shows,Op.unpausing]
  | thawed here =>
      have tracks := heard_parts heard (by rw [here]; rfl)
      refine ⟨false,by simp [Shows,Box.unlock,unpauseDone],?_⟩
      simpa [here,Op.unpausing,Box.unlock] using tracks.congr (unpauseDone b.safe) rfl rfl
  | destroyIgnored here alive running =>
      have tracks := heard_parts heard (by rw [here]; rfl)
      exact ⟨_,fun _ => rfl,tracks.emit_other alive (by decide) (by decide) rfl⟩
  | finish here =>
      simp only [Lives,here] at lives
      obtain ⟨shown,_,tracks⟩ := heard
      exact ⟨_,fun _ => rfl,tracks.emit_destroy lives.1⟩

theorem resume_heard {b : Box} (heard : Heard b) : Heard b.resume := by
  unfold Box.resume
  split
  · rename_i here
    refine heard_kept heard rfl rfl ?_ ?_ <;> simp [here,Op.dying,Op.after,Op.unpausing]
  · rename_i here
    refine heard_kept heard rfl rfl ?_ ?_ <;> simp [here,Op.dying,Op.after,Op.unpausing]
  · rename_i here
    refine heard_kept heard rfl rfl ?_ ?_ <;> simp [here,Op.dying,Op.after,Op.unpausing]
  · rename_i here
    refine heard_kept heard rfl rfl ?_ ?_ <;> simp [here,Op.dying,Op.after,Op.unpausing]
  · exact heard

theorem memSend_heard {b : Box} (heard : Heard b) (here : b.op = .memSend mb use) :
    Heard {b with op := .memWait mb use} := by
  cases use <;> refine heard_kept heard rfl rfl ?_ ?_ <;> simp [here,Op.dying,Op.after,Op.unpausing]

theorem localStep_kin {b : Box} (step : LocalStep conf b out) :
    out.events.count evFork = 0 ∧ out.events.count evChildExit = 0 := by
  have other : ∀ ev, ev ≠ evFork → ev ≠ evChildExit →
      (event b.safe ev).count evFork = 0 ∧ (event b.safe ev).count evChildExit = 0 := by
    intro ev first second
    unfold event
    split <;> simp [first,second]
  cases step with
  | unpause | paused | destroyIgnored => exact other _ (by decide) (by decide)
  | connected => simp [startNotifyingListeners,event]
  | finish =>
      simp only [died,event]
      split <;> simp
  | decRef =>
      unfold Box.decCgRefCount
      dsimp only
      split
      · simp
      · split <;> simp
  | _ => simp

theorem localStep_hist {b : Box} (step : LocalStep conf b out) : out.box.hist = b.hist ∧ out.events.length ≤ 1 := by
  have single : ∀ (safe : SafeSandbox) ev, (event safe ev).length ≤ 1 := by
    intro safe ev
    unfold event
    split <;> simp
  cases step with
  | decRef =>
      unfold Box.decCgRefCount
      dsimp only
      split
      · simp
      · split <;> simp
  | kill =>
      unfold Box.killAndRelease
      split <;> simp
  | connected => exact ⟨rfl,by simp [startNotifyingListeners,event]⟩
  | unpause | paused | destroyIgnored | finish => exact ⟨rfl,single _ _⟩
  | _ => exact ⟨rfl,by simp⟩

def Op.exitWaits : Op → Bool
  | .exitWait _ => true
  | _ => false

theorem exitWaits_parts {op : Op} : op.exitWaits = true ↔ ∃ after, op = .exitWait after := by
  cases op <;> simp [Op.exitWaits]

def Box.told (b : Box) (p : Nat) : Prop := b.forkedFrom p ∧ b.exitCalls ≠ 0 ∧ b.op.exitWaits = false

instance (b : Box) (p : Nat) : Decidable (b.told p) := by unfold Box.told; infer_instance

def Box.forkWeight (b : Box) (p : Nat) : Int := if b.forkedFrom p then 1 else 0

def Box.toldWeight (b : Box) (p : Nat) : Int := if b.told p then 1 else 0

theorem told_le_fork (b : Box) (p : Nat) : b.toldWeight p ≤ b.forkWeight p := by
  unfold Box.toldWeight Box.forkWeight
  split
  · rename_i told
    rw [if_pos told.1]
  · split <;> omega

theorem quiet_weights {b c : Box} (quiet : Quiet b c) (p : Nat) :
    c.forkWeight p = b.forkWeight p ∧ c.toldWeight p = b.toldWeight p := by
  have waits : c.op.exitWaits = b.op.exitWaits := by
    rw [Bool.eq_iff_iff,exitWaits_parts,exitWaits_parts]
    simp only [quiet.exitWait]
  simp only [Box.forkWeight,Box.toldWeight,Box.told,quiet.forked,quiet.exitCalls,waits,true_and]

end OpenLambda.SockContainer

namespace OpenLambda.SockSystem
open Foundation.Runs Foundation.Tally SafeWrapper SandboxEventType SockContainer Evictor

-- The events of all containers: each stream obeys the wrapper's contract, and
-- forks and exits match the children.
structure Stream (s : System) : Prop where
  heard : ∀ i, Heard (s.box i)
  forks : ∀ p, p < s.nextId → ((s.box p).hist.count evFork : Int) = tally s.nextId fun i => (s.box i).forkWeight p
  exits : ∀ p, p < s.nextId → ((s.box p).hist.count evChildExit : Int) ≤ tally s.nextId fun i => (s.box i).toldWeight p
  balanced : ∀ p early, early <+: (s.box p).hist → early.count evChildExit ≤ early.count evFork
  blank : ∀ i, s.nextId ≤ i → (s.box i).hist = []

theorem init_stream (conf : Conf) : Stream (init conf) := by
  refine ⟨fun i => newBox_heard ..,?_,?_,?_,?_⟩
  · intro p within; cases within
  · intro p within; cases within
  · intro p early front
    have nothing : early = [] := List.prefix_nil.mp front
    simp [nothing]
  · intro i _; rfl

theorem Stream.legal {s : System} (stream : Stream s) (i : Nat) : Legal (s.box i).hist := by
  refine ⟨fun nonempty => ?_,stream.balanced i⟩
  obtain ⟨shown,_,tracks⟩ := stream.heard i
  refine tracks.contract ?_
  by_contra silent
  exact nonempty (tracks.silent (by simpa using silent))

theorem balanced_longer {events more : List SandboxEventType}
    (before : ∀ early, early <+: events → early.count evChildExit ≤ early.count evFork) (short : more.length ≤ 1)
    (whole : (events ++ more).count evChildExit ≤ (events ++ more).count evFork) :
    ∀ early, early <+: events ++ more → early.count evChildExit ≤ early.count evFork := by
  intro early front
  rcases more with _ | ⟨ev,rest⟩
  · exact before early (by simpa using front)
  · have last : rest = [] := by simpa using short
    subst last
    rcases List.prefix_concat_iff.mp front with rfl | shorter
    · exact whole
    · exact before early shorter

theorem whole_balanced {s : System}
    (forks : ((s.box p).hist.count evFork : Int) = tally s.nextId fun i => (s.box i).forkWeight p)
    (exits : ((s.box p).hist.count evChildExit : Int) ≤ tally s.nextId fun i => (s.box i).toldWeight p) :
    (s.box p).hist.count evChildExit ≤ (s.box p).hist.count evFork := by
  have bound : (tally s.nextId fun i => (s.box i).toldWeight p) ≤ tally s.nextId fun i => (s.box i).forkWeight p :=
    tally_mono fun i _ => told_le_fork (s.box i) p
  omega

theorem quiet_stream {s t : System} (stream : Stream s) (same : t.nextId = s.nextId) (heard : ∀ i, Heard (t.box i))
    (quiet : ∀ i, i < s.nextId → Quiet (s.box i) (t.box i))
    (hist : ∀ i, ∃ more, (t.box i).hist = (s.box i).hist ++ more ∧ more.length ≤ 1 ∧ more.count evFork = 0 ∧
      more.count evChildExit = 0 ∧ (s.nextId ≤ i → more = [])) : Stream t := by
  have counts : ∀ i, (t.box i).hist.count evFork = (s.box i).hist.count evFork ∧
      (t.box i).hist.count evChildExit = (s.box i).hist.count evChildExit := by
    intro i
    obtain ⟨more,longer,_,noFork,noExit,_⟩ := hist i
    simp [longer,noFork,noExit]
  refine ⟨heard,?_,?_,?_,?_⟩
  · intro p within
    rw [same] at within ⊢
    rw [(counts p).1,stream.forks p within]
    exact tally_congr fun i inside => (quiet_weights (quiet i inside) p).1.symm
  · intro p within
    rw [same] at within ⊢
    rw [(counts p).2,tally_congr fun i inside => (quiet_weights (quiet i inside) p).2]
    exact stream.exits p within
  · intro p
    obtain ⟨more,longer,short,noFork,noExit,_⟩ := hist p
    rw [longer]
    refine balanced_longer (stream.balanced p) short ?_
    simpa [noFork,noExit] using stream.balanced p _ (List.prefix_refl _)
  · intro i beyond
    rw [same] at beyond
    obtain ⟨more,longer,_,_,_,none⟩ := hist i
    rw [longer,none beyond,stream.blank i beyond,List.append_nil]

theorem put_stream {s t : System} {id : Nat} {b : Box} {more : List SandboxEventType} (stream : Stream s)
    (within : id < s.nextId) (same : t.nextId = s.nextId) (box : t.box = Function.update s.box id b) (heard : Heard b)
    (quiet : Quiet (s.box id) b) (hist : b.hist = (s.box id).hist ++ more) (short : more.length ≤ 1)
    (kin : more.count evFork = 0 ∧ more.count evChildExit = 0) : Stream t := by
  refine quiet_stream stream same ?_ (fun i _ => put_quiet box quiet i) ?_
  · intro i
    rw [box]
    by_cases equal : i = id
    · rw [equal,Function.update_self]; exact heard
    · rw [Function.update_of_ne equal]; exact stream.heard i
  · intro i
    rw [box]
    by_cases equal : i = id
    · rw [equal,Function.update_self]
      exact ⟨more,hist,short,kin.1,kin.2,fun beyond => by omega⟩
    · rw [Function.update_of_ne equal]
      exact ⟨[],by simp⟩

theorem pair_stream {s t : System} {id p : Nat} {child parent : Box} {more : List SandboxEventType} (stream : Stream s)
    (within : id < s.nextId) (inside : p < s.nextId) (different : id ≠ p) (same : t.nextId = s.nextId)
    (box : t.box = Function.update (Function.update s.box p parent) id child)
    (childHeard : Heard child) (parentHeard : Heard parent) (childHist : child.hist = (s.box id).hist)
    (parentHist : parent.hist = (s.box p).hist ++ more) (short : more.length ≤ 1)
    (parentKin : ∀ q, parent.forkWeight q = (s.box p).forkWeight q ∧ parent.toldWeight q = (s.box p).toldWeight q)
    (childForks : ∀ q, child.forkWeight q = (s.box id).forkWeight q + if q = p then (more.count evFork : Int) else 0)
    (childTold : ∀ q, (s.box id).toldWeight q + (if q = p then (more.count evChildExit : Int) else 0) ≤ child.toldWeight q) :
    Stream t := by
  have childBox : t.box id = child := by rw [box,Function.update_self]
  have parentBox : t.box p = parent := by rw [box,Function.update_of_ne different.symm,Function.update_self]
  have otherBox : ∀ i, i ≠ id → i ≠ p → t.box i = s.box i := by
    intro i notChild notParent
    rw [box,Function.update_of_ne notChild,Function.update_of_ne notParent]
  have hist : ∀ i, i ≠ p → (t.box i).hist = (s.box i).hist := by
    intro i notParent
    by_cases isChild : i = id
    · rw [isChild,childBox,childHist]
    · rw [otherBox i isChild notParent]
  have forks : ∀ q, q < s.nextId → ((t.box q).hist.count evFork : Int) = tally s.nextId fun i => (t.box i).forkWeight q := by
    intro q bound
    rw [box,tally_update_two inside within different s.box parent child fun _ b => b.forkWeight q,← box,
      (parentKin q).1,childForks q,← stream.forks q bound]
    by_cases isParent : q = p
    · rw [isParent,parentBox,parentHist,List.count_append,if_pos rfl]
      omega
    · rw [hist q isParent,if_neg isParent]
      omega
  have exits : ∀ q, q < s.nextId →
      ((t.box q).hist.count evChildExit : Int) ≤ tally s.nextId fun i => (t.box i).toldWeight q := by
    intro q bound
    have before := stream.exits q bound
    have told := childTold q
    rw [box,tally_update_two inside within different s.box parent child fun _ b => b.toldWeight q,← box,(parentKin q).2]
    by_cases isParent : q = p
    · rw [isParent] at before told ⊢
      rw [if_pos rfl] at told
      rw [parentBox,parentHist,List.count_append]
      omega
    · rw [if_neg isParent] at told
      rw [hist q isParent]
      omega
  refine ⟨?_,same ▸ forks,same ▸ exits,?_,?_⟩
  · intro i
    by_cases isChild : i = id
    · rw [isChild,childBox]; exact childHeard
    · by_cases isParent : i = p
      · rw [isParent,parentBox]; exact parentHeard
      · rw [otherBox i isChild isParent]; exact stream.heard i
  · intro q
    by_cases isParent : q = p
    · rw [isParent]
      have whole : (t.box p).hist.count evChildExit ≤ (t.box p).hist.count evFork := by
        refine whole_balanced ?_ ?_ <;> rw [same]
        · exact forks p inside
        · exact exits p inside
      rw [parentBox,parentHist] at whole ⊢
      exact balanced_longer (stream.balanced p) short whole
    · rw [hist q isParent]
      exact stream.balanced q
  · intro i beyond
    rw [same] at beyond
    rw [hist i (by omega)]
    exact stream.blank i beyond

theorem create_stream {s t : System} (family : Family conf s) (stream : Stream s) (next : t.nextId = s.nextId + 1)
    (box : t.box = Function.update s.box s.nextId (newBox conf parent memLimitMB)) : Stream t := by
  have old : ∀ i, i ≠ s.nextId → t.box i = s.box i := by
    intro i different
    rw [box,Function.update_of_ne different]
  have new : t.box s.nextId = newBox conf parent memLimitMB := by rw [box,Function.update_self]
  have none : ∀ p, (newBox conf parent memLimitMB).forkWeight p = 0 ∧ (newBox conf parent memLimitMB).toldWeight p = 0 := by
    intro p
    simp [Box.forkWeight,Box.toldWeight,Box.told,Box.forkedFrom,newBox]
  have hist : ∀ i, (t.box i).hist = (s.box i).hist := by
    intro i
    by_cases equal : i = s.nextId
    · rw [equal,new,stream.blank _ (le_refl _)]; rfl
    · rw [old i equal]
  have orphan : ∀ i, i < s.nextId → ¬ (s.box i).forkedFrom s.nextId := by
    rintro i inside (⟨_,made⟩ | child)
    · have := (family.older i _ inside made).1
      omega
    · have := (family.older i _ inside (family.parent i _ inside child)).1
      omega
  refine ⟨?_,?_,?_,?_,?_⟩
  · intro i
    by_cases equal : i = s.nextId
    · rw [equal,new]; exact newBox_heard ..
    · rw [old i equal]; exact stream.heard i
  · intro p within
    rw [next,tally_succ,new,(none p).1,add_zero,hist p,
      tally_congr fun i inside => by rw [old i (by omega)]]
    by_cases equal : p = s.nextId
    · rw [equal,stream.blank _ (le_refl _)]
      refine (tally_none s.nextId).symm.trans (tally_congr fun i inside => ?_)
      rw [Box.forkWeight,if_neg (orphan i inside)]
    · exact stream.forks p (by omega)
  · intro p within
    rw [next,tally_succ,new,(none p).2,add_zero,hist p,
      tally_congr fun i inside => by rw [old i (by omega)]]
    by_cases equal : p = s.nextId
    · rw [equal,stream.blank _ (le_refl _)]
      refine tally_nonneg fun i _ => ?_
      unfold Box.toldWeight
      split <;> omega
    · exact stream.exits p (by omega)
  · intro p
    rw [hist p]
    exact stream.balanced p
  · intro i beyond
    rw [hist i]
    exact stream.blank i (by omega)

theorem kept_stream {s t : System} (stream : Stream s) (same : t.nextId = s.nextId) (box : t.box = s.box) : Stream t := by
  refine quiet_stream stream same ?_ ?_ ?_ <;> rw [box]
  · exact stream.heard
  · exact fun i _ => quiet_refl _
  · exact fun i => ⟨[],by simp⟩

theorem answer_stream {s : System} (stream : Stream s) (a : MemPool.Answer Client) : Stream (s.answer a) := by
  obtain ⟨same,box | ⟨id,box⟩⟩ := answer_box s a
  · exact kept_stream stream same box
  · refine quiet_stream stream same ?_ (fun i _ => put_quiet box (resume_quiet _) i) ?_
    all_goals
      intro i
      rw [box]
      by_cases equal : i = id
    · rw [equal,Function.update_self]; exact resume_heard (stream.heard id)
    · rw [Function.update_of_ne equal]; exact stream.heard i
    · rw [equal,Function.update_self]
      refine ⟨[],?_,by simp⟩
      rw [List.append_nil]
      unfold Box.resume
      split <;> rfl
    · rw [Function.update_of_ne equal]; exact ⟨[],by simp⟩

theorem weights_kept {b c : Box} (parent : c.parent = b.parent) (exits : c.exitCalls = b.exitCalls)
    (before : b.op ≠ .forked ∧ b.op.exitWaits = false) (after : c.op ≠ .forked ∧ c.op.exitWaits = false) (q : Nat) :
    c.forkWeight q = b.forkWeight q ∧ c.toldWeight q = b.toldWeight q := by
  simp [Box.forkWeight,Box.toldWeight,Box.told,Box.forkedFrom,parent,exits,before,after]

theorem silent_stream {s t : System} {id p : Nat} {child parent : Box} (stream : Stream s) (within : id < s.nextId)
    (inside : p < s.nextId) (different : id ≠ p) (same : t.nextId = s.nextId)
    (box : t.box = Function.update (Function.update s.box p parent) id child)
    (childHeard : Heard child) (parentHeard : Heard parent)
    (hists : child.hist = (s.box id).hist ∧ parent.hist = (s.box p).hist)
    (parentKin : ∀ q, parent.forkWeight q = (s.box p).forkWeight q ∧ parent.toldWeight q = (s.box p).toldWeight q)
    (childKin : ∀ q, child.forkWeight q = (s.box id).forkWeight q ∧ child.toldWeight q = (s.box id).toldWeight q) :
    Stream t := by
  refine pair_stream stream within inside different same box childHeard parentHeard hists.1
    (hists.2.trans (List.append_nil _).symm) (by simp) parentKin ?_ ?_
  · intro q
    simp [(childKin q).1]
  · intro q
    simp [(childKin q).2]

theorem forkDone_stream {s t : System} {id p : Nat} (family : Family conf s) (stream : Stream s) (within : id < s.nextId)
    (here : (s.box id).op = .forkWait) (made : (s.box id).createParent = some p) (busy : (s.box p).op = .forking id)
    (moved : t = (s.emitted p (s.box p).unlock (event (s.box p).safe evFork)).put id {s.box id with op := .forked}) :
    Stream t := by
  have order := (family.older id p within made).1
  have lives := (family.ok p (by omega)).lives
  have exits : (s.box id).exitCalls = 0 ∧ (s.box id).parent = none := by
    have low := family.low within
    obtain ⟨releases,alive,_⟩ := family.ok id within
    simp only [Releases,Lives,here] at releases alive
    simp [Box.floor,here,alive.1.2] at low
    rcases releases with ⟨_,intact⟩ | ⟨zero,_⟩
    · exact ⟨intact.2.2.2,alive.2⟩
    · omega
  simp only [Lives,busy] at lives
  rw [event_heard lives.2.1] at moved
  subst moved
  have tracks := heard_parts (stream.heard p) (by rw [busy]; rfl)
  have told : Tracks (s.box p).safe _ ((s.box p).hist ++ event (s.box p).safe evFork) :=
    tracks.emit_other lives.1 (by decide) (by decide) rfl
  rw [event_heard lives.2.1] at told
  refine pair_stream stream within (by omega) (by omega) rfl rfl ?_ ?_ rfl rfl (by simp) ?_ ?_ ?_
  · refine heard_kept (stream.heard id) rfl rfl ?_ ?_ <;> simp [here,Op.dying,Op.after,Op.unpausing]
  · exact ⟨_,by simp [Shows,Box.unlock,busy,Op.unpausing],told⟩
  · exact weights_kept rfl rfl (by simp [busy,Op.exitWaits]) (by simp [Box.unlock,Op.exitWaits])
  · intro q
    simp [Box.forkWeight,Box.forkedFrom,here,made,exits.2,eq_comm]
  · intro q
    simp [Box.toldWeight,Box.told,exits.1]

theorem exitReturn_stream {s t : System} {id child : Nat} (family : Family conf s) (stream : Stream s)
    (within : id < s.nextId) (here : (s.box id).op = .returned (.childExit child))
    (waits : (s.box child).op = .exitWait after) (born : (s.box child).parent = some id)
    (moved : t = (s.emitted id (s.box id).unlock (childExitDone (s.box id).safe)).put child
      {s.box child with op := .returned after}) : Stream t := by
  have inside : child < s.nextId := (family.exiting id child within (by rw [here]; rfl)).1
  have order := (family.older child id inside (family.parent child id inside born)).1
  have releases := (family.ok child inside).releases
  simp only [Releases,waits] at releases
  have exits : (s.box child).exitCalls = 1 := releases.2.2.2.2.2
  have tracks := heard_parts (stream.heard id) (by rw [here]; rfl)
  have short : (childExitDone (s.box id).safe).length ≤ 1 ∧ (childExitDone (s.box id).safe).count evFork = 0 := by
    unfold childExitDone event
    split <;> [split;skip] <;> simp
  have few := List.count_le_length (l := childExitDone (s.box id).safe) (a := evChildExit)
  subst moved
  refine pair_stream stream inside within (by omega) rfl rfl ?_ ?_ rfl rfl short.1 ?_ ?_ ?_
  · refine heard_kept (stream.heard child) rfl rfl ?_ ?_ <;> simp [waits,Op.dying,Op.after,Op.unpausing]
  · exact ⟨_,by simp [Shows,Box.unlock,here,Op.unpausing],tracks.emit_childExit⟩
  · exact weights_kept rfl rfl (by simp [here,Op.exitWaits]) (by simp [Box.unlock,Op.exitWaits])
  · intro q
    simp [Box.forkWeight,Box.forkedFrom,waits,born,short.2]
  · intro q
    have before : (s.box child).toldWeight q = 0 := by simp [Box.toldWeight,Box.told,waits,Op.exitWaits]
    rw [before]
    by_cases isParent : q = id
    · have whole : ({s.box child with op := .returned after} : Box).toldWeight q = 1 := by
        simp [Box.toldWeight,Box.told,Box.forkedFrom,born,exits,isParent,Op.exitWaits]
      rw [whole,if_pos isParent]
      omega
    · rw [if_neg isParent]
      unfold Box.toldWeight
      split <;> omega

theorem moves_stream {s t : System} (family : Family conf s) (stream : Stream s) (move : Moves conf s action t) :
    Stream t := by
  cases move with
  | create known => exact create_stream family stream rfl rfl
  | act within moved _ =>
      have ok := family.ok _ within
      obtain ⟨hist,short⟩ := localStep_hist moved
      exact put_stream stream within rfl rfl (localStep_heard ok (stream.heard _) moved _)
        (quiet_marked (localStep_quiet ok (family.low within) moved) _ _) (by rw [hist]) short (localStep_kin moved)
  | memSend within here =>
      exact put_stream stream within rfl rfl (memSend_heard (stream.heard _) here) (memSend_quiet here)
        (List.append_nil _).symm (by simp) (by simp)
  | memReleased | memGranted => refine answer_stream ?_ _; exact kept_stream stream rfl rfl
  | forkRefused within here =>
      refine put_stream stream within rfl rfl ?_ (goto_quiet (family.ok _ within).lives (.createFailed (.inl here)))
        (List.append_nil _).symm (by simp) (by simp)
      exact goto_heard (stream.heard _) (.createFailed (.inl here))
  | forkEntered within here made idle ran =>
      obtain ⟨_,rfl⟩ := forkEnter_parts ran
      have order := (family.older _ _ within made).1
      refine silent_stream stream within (by omega) (by omega) rfl rfl ?_ ?_ ⟨rfl,rfl⟩
        (weights_kept rfl rfl (by simp [idle,Op.exitWaits]) (by simp [Op.exitWaits]))
        (weights_kept rfl rfl (by simp [here,Op.exitWaits]) (by simp [Op.exitWaits]))
      · refine heard_kept (stream.heard _) rfl rfl ?_ ?_ <;> simp [here,Op.dying,Op.after,Op.unpausing]
      · refine heard_kept (stream.heard _) rfl rfl ?_ ?_ <;> simp [idle,Op.dying,Op.after,Op.unpausing]
  | forkFailed _ within here made busy =>
      have order := (family.older _ _ within made).1
      refine silent_stream stream within (by omega) (by omega) rfl rfl ?_ ?_
        ⟨rfl,by simp [Box.forkLeave,Box.unlock]⟩
        (weights_kept rfl rfl (by simp [busy,Op.exitWaits]) (by simp [Box.forkLeave,Box.unlock,Op.exitWaits]))
        (weights_kept rfl rfl (by simp [here,Op.exitWaits]) (by simp [Box.failCreate,Op.exitWaits]))
      · refine heard_kept (stream.heard _) rfl rfl ?_ ?_ <;> simp [here,Box.failCreate,Op.dying,Op.after,After.own]
      · refine heard_kept (stream.heard _) rfl (by simp [Box.forkLeave,Box.unlock]) ?_ ?_ <;>
          simp [busy,Box.forkLeave,Box.unlock,Op.dying,Op.after,Op.unpausing]
  | forkDone within here made busy => exact forkDone_stream family stream within here made busy rfl
  | exitCall within here child idle =>
      have order := (family.older _ _ within (family.parent _ _ within child)).1
      have releases := (family.ok _ within).releases
      simp only [Releases,here] at releases
      refine silent_stream stream within (by omega) (by omega) rfl rfl ?_ ?_ ⟨rfl,rfl⟩
        (weights_kept rfl rfl (by simp [idle,Op.exitWaits]) (by simp [Box.childExit,Op.exitWaits])) ?_
      · refine heard_kept (stream.heard _) rfl rfl ?_ ?_ <;> simp [here,Op.dying,Op.after,Op.unpausing]
      · refine heard_kept (stream.heard _) rfl rfl ?_ ?_ <;>
          simp [idle,Box.childExit,Op.dying,Op.after,Op.unpausing,After.own]
      · intro q
        simp [Box.forkWeight,Box.toldWeight,Box.told,Box.forkedFrom,here,releases.2.2.2.2.2,Op.exitWaits]
  | exitReturn within here waits born => exact exitReturn_stream family stream within here waits born rfl
  | memPanic | memQueued | memKept | updatePanic | update | probe | decidePanic => exact kept_stream stream rfl rfl
  | decide _ ran =>
      obtain ⟨tasks,last,next,started⟩ := start_parts _ _
      rw [started]
      exact kept_stream stream rfl rfl

end OpenLambda.SockSystem
