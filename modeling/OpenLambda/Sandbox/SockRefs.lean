import OpenLambda.Sandbox.SockKin

namespace OpenLambda.SockSystem
open Foundation.Runs Foundation.Tally SafeWrapper SandboxEventType SockContainer

structure Family (conf : Conf) (s : System) : Prop where
  ok : ∀ i, i < s.nextId → BoxOK conf (s.box i)
  older : ∀ i p, i < s.nextId → (s.box i).createParent = some p → p < i ∧ (s.box p).safe.listening = true
  parent : ∀ i p, i < s.nextId → (s.box i).parent = some p → (s.box i).createParent = some p
  refs : ∀ p, p < s.nextId → (s.box p).spare = tally s.nextId fun i => (s.box i).heldOn p
  forkWait : ∀ i p, i < s.nextId → (s.box i).op = .forkWait → (s.box i).createParent = some p → (s.box p).op = .forking i
  forking : ∀ p c, p < s.nextId → (s.box p).op = .forking c →
    c < s.nextId ∧ (s.box c).op = .forkWait ∧ (s.box c).createParent = some p
  exiting : ∀ p c, p < s.nextId → (s.box p).op.exiting = some c →
    c < s.nextId ∧ (s.box c).parent = some p ∧ ∃ after, (s.box c).op = .exitWait after

theorem init_family (conf : Conf) : Family conf (init conf) := by
  refine ⟨?_,?_,?_,?_,?_,?_,?_⟩ <;> intro i <;> simp [init]

theorem Family.low {s : System} (family : Family conf s) (within : p < s.nextId) :
    (s.box p).floor ≤ (s.box p).cgRefCount := by
  have spare := family.refs p within
  have held : 0 ≤ tally s.nextId fun i => (s.box i).heldOn p := tally_nonneg fun i _ => heldOn_nonneg (s.box i) p
  unfold Box.spare at spare
  omega

theorem quiet_family {s t : System} (family : Family conf s) (same : t.nextId = s.nextId)
    (quiet : ∀ i, i < s.nextId → Quiet (s.box i) (t.box i)) (ok : ∀ i, i < s.nextId → BoxOK conf (t.box i)) :
    Family conf t := by
  refine ⟨?_,?_,?_,?_,?_,?_,?_⟩ <;> rw [same]
  · exact ok
  · intro i p within made
    rw [(quiet i within).createParent] at made
    obtain ⟨before,heard⟩ := family.older i p within made
    exact ⟨before,(quiet p (by omega)).listening heard⟩
  · intro i p within child
    rw [(quiet i within).createParent]
    rcases (quiet i within).parent with kept | ⟨_,set⟩
    · exact family.parent i p within (kept ▸ child)
    · exact set ▸ child
  · intro p within
    rw [(quiet p within).spare,family.refs p within]
    exact tally_congr fun i inside => (quiet_heldOn (quiet i inside) p).symm
  · intro i p within waits made
    rw [(quiet i within).createParent] at made
    have before := (family.older i p within made).1
    exact ((quiet p (by omega)).forking i).mpr
      (family.forkWait i p within ((quiet i within).forkWait.mp waits) made)
  · intro p c within busy
    obtain ⟨inside,waits,made⟩ := family.forking p c within (((quiet p within).forking c).mp busy)
    exact ⟨inside,(quiet c inside).forkWait.mpr waits,(quiet c inside).createParent.trans made⟩
  · intro p c within busy
    obtain ⟨inside,child,after,waits⟩ := family.exiting p c within ((quiet p within).exiting c busy)
    refine ⟨inside,?_,after,((quiet c inside).exitWait after).mpr waits⟩
    rcases (quiet c inside).parent with kept | ⟨forked,_⟩
    · rw [kept,child]
    · rw [forked] at waits; cases waits

theorem put_quiet {s t : System} {id : Nat} {b : Box} (box : t.box = Function.update s.box id b)
    (quiet : Quiet (s.box id) b) (i : Nat) : Quiet (s.box i) (t.box i) := by
  rw [box]
  by_cases equal : i = id
  · rw [equal,Function.update_self]; exact quiet
  · rw [Function.update_of_ne equal]; exact quiet_refl _

theorem put_ok {s t : System} {id : Nat} {b : Box} (family : Family conf s) (box : t.box = Function.update s.box id b)
    (ok : id < s.nextId → BoxOK conf b) (i : Nat) (within : i < s.nextId) : BoxOK conf (t.box i) := by
  rw [box]
  by_cases equal : i = id
  · rw [equal] at within ⊢; rw [Function.update_self]; exact ok within
  · rw [Function.update_of_ne equal]; exact family.ok i within

theorem put_family {s t : System} {id : Nat} {b : Box} (family : Family conf s) (same : t.nextId = s.nextId)
    (box : t.box = Function.update s.box id b) (quiet : Quiet (s.box id) b) (ok : id < s.nextId → BoxOK conf b) :
    Family conf t :=
  quiet_family family same (fun i _ => put_quiet box quiet i) (put_ok family box ok)

theorem kept_family {s t : System} (family : Family conf s) (same : t.nextId = s.nextId) (box : t.box = s.box) :
    Family conf t :=
  quiet_family family same (fun _ _ => box ▸ quiet_refl _) (fun i within => box ▸ family.ok i within)

theorem answer_box (s : System) (a : MemPool.Answer Client) : (s.answer a).nextId = s.nextId ∧
    ((s.answer a).box = s.box ∨ ∃ id, (s.answer a).box = Function.update s.box id (s.box id).resume) := by
  unfold System.answer
  split
  · exact ⟨rfl,.inr ⟨_,rfl⟩⟩
  · exact ⟨rfl,.inl rfl⟩

theorem answer_family {s : System} (family : Family conf s) (a : MemPool.Answer Client) : Family conf (s.answer a) := by
  obtain ⟨same,box | ⟨id,box⟩⟩ := answer_box s a
  · exact kept_family family same box
  · exact put_family family same box (resume_quiet _) fun within => resume_ok (family.ok id within)

theorem start_parts (works : List (Nat × Bool)) (s : System) : ∃ tasks last next,
    works.foldl System.start s = {s with task := tasks,lastTask := last,nextTask := next} := by
  induction works generalizing s with
  | nil => exact ⟨_,_,_,rfl⟩
  | cons work rest ih => exact ih (s.start work)

theorem create_family {s t : System} (family : Family conf s)
    (known : ∀ p, parent = some p → p < s.nextId ∧ (s.box p).safe.listening = true)
    (next : t.nextId = s.nextId + 1) (box : t.box = Function.update s.box s.nextId (newBox conf parent memLimitMB)) :
    Family conf t := by
  have old : ∀ i, i < s.nextId → t.box i = s.box i := by
    intro i within
    rw [box,Function.update_of_ne (by omega)]
  have new : t.box s.nextId = newBox conf parent memLimitMB := by rw [box,Function.update_self]
  have cases_of : ∀ {i}, i < t.nextId → i < s.nextId ∨ i = s.nextId := by omega
  refine ⟨?_,?_,?_,?_,?_,?_,?_⟩
  · intro i within
    rcases cases_of within with before | rfl
    · rw [old i before]; exact family.ok i before
    · rw [new]; exact newBox_ok ..
  · intro i p within made
    rcases cases_of within with before | rfl
    · rw [old i before] at made
      obtain ⟨order,heard⟩ := family.older i p before made
      rw [old p (by omega)]
      exact ⟨order,heard⟩
    · rw [new] at made
      obtain ⟨order,heard⟩ := known p made
      rw [old p order]
      exact ⟨order,heard⟩
  · intro i p within child
    rcases cases_of within with before | rfl
    · rw [old i before] at child ⊢; exact family.parent i p before child
    · rw [new] at child; cases child
  · intro p within
    rw [next,tally_succ,new,tally_congr (fun i inside => by rw [old i inside])]
    have none : (newBox conf parent memLimitMB).heldOn p = 0 := by simp [Box.heldOn,Box.forkedFrom,newBox]
    rcases cases_of within with before | rfl
    · rw [old p before,family.refs p before,none,add_zero]
    · have unknown : tally s.nextId (fun i => (s.box i).heldOn s.nextId) = tally s.nextId fun _ => 0 := by
        refine tally_congr fun i inside => ?_
        have strange : (s.box i).createParent ≠ some s.nextId := fun made => by
          have := (family.older i _ inside made).1
          omega
        have orphan : (s.box i).parent ≠ some s.nextId := fun child => strange (family.parent i _ inside child)
        simp [Box.heldOn,Box.forkedFrom,strange,orphan]
      rw [new,none,unknown]
      simp [Box.spare,Box.floor,newBox,tally]
  · intro i p within waits made
    rcases cases_of within with before | rfl
    · rw [old i before] at waits made
      rw [old p (by have := (family.older i p before made).1; omega)]
      exact family.forkWait i p before waits made
    · rw [new] at waits; cases waits
  · intro p c within busy
    rcases cases_of within with before | rfl
    · rw [old p before] at busy
      obtain ⟨inside,waits⟩ := family.forking p c before busy
      rw [old c inside]
      exact ⟨by omega,waits⟩
    · rw [new] at busy; cases busy
  · intro p c within busy
    rcases cases_of within with before | rfl
    · rw [old p before] at busy
      obtain ⟨inside,child,waits⟩ := family.exiting p c before busy
      rw [old c inside]
      exact ⟨by omega,child,waits⟩
    · rw [new] at busy; cases busy

-- A call from container `id` to its parent `p`, or the return from one: the two
-- containers become `child` and `parent` together.
structure Exchange (conf : Conf) (s : System) (id p : Nat) (child parent : Box) : Prop where
  within : id < s.nextId
  made : (s.box id).createParent = some p
  childOk : BoxOK conf child
  parentOk : BoxOK conf parent
  childKept : child.createParent = (s.box id).createParent ∧ child.parent = (s.box id).parent ∧
    child.safe = (s.box id).safe ∧ child.spare = (s.box id).spare
  parentKept : parent.createParent = (s.box p).createParent ∧ parent.parent = (s.box p).parent ∧
    parent.safe = (s.box p).safe ∧ ∀ q, parent.heldOn q = (s.box p).heldOn q
  -- the reference changes hands between the two
  moved : parent.spare - (s.box p).spare = child.heldOn p - (s.box id).heldOn p
  elsewhere : ∀ q, q ≠ p → child.heldOn q = (s.box id).heldOn q
  -- the parent's mutex is free or held for this child
  alone : ∀ i, (s.box p).op = .forking i → i = id
  awake : (∀ i, (s.box id).op ≠ .forking i) ∧ (∀ after, (s.box p).op ≠ .exitWait after) ∧ (s.box p).op ≠ .forkWait
  waits : child.op = .forkWait → parent.op = .forking id
  parentWaits : parent.op ≠ .forkWait
  forks : ∀ c, parent.op = .forking c → c = id ∧ child.op = .forkWait
  childForks : ∀ c, child.op ≠ .forking c
  serves : ∀ c, parent.op.exiting = some c → c = id ∧ child.parent = some p ∧ ∃ after, child.op = .exitWait after
  childServes : ∀ c, child.op.exiting = some c → (s.box id).op.exiting = some c
  asked : ∀ after, (s.box id).op = .exitWait after → (s.box id).parent = some p

structure Swapped (s t : System) (id p : Nat) (child parent : Box) : Prop where
  child : t.box id = child
  parent : t.box p = parent
  other : ∀ i, i ≠ id → i ≠ p → t.box i = s.box i

theorem exchange_swapped {s t : System} {id p : Nat} (family : Family conf s)
    (exchange : Exchange conf s id p child parent)
    (box : t.box = Function.update (Function.update s.box p parent) id child) : Swapped s t id p child parent := by
  have older := (family.older id p exchange.within exchange.made).1
  refine ⟨?_,?_,?_⟩
  · rw [box,Function.update_self]
  · rw [box,Function.update_of_ne (by omega),Function.update_self]
  · intro i notChild notParent
    rw [box,Function.update_of_ne notChild,Function.update_of_ne notParent]

theorem exchange_kept {s t : System} {id p : Nat} (exchange : Exchange conf s id p child parent)
    (swapped : Swapped s t id p child parent) (i : Nat) :
    (t.box i).createParent = (s.box i).createParent ∧ (t.box i).parent = (s.box i).parent ∧
      (t.box i).safe = (s.box i).safe := by
  obtain ⟨childMade,childParent,childSafe,_⟩ := exchange.childKept
  obtain ⟨parentMade,parentParent,parentSafe,_⟩ := exchange.parentKept
  by_cases isChild : i = id
  · rw [isChild,swapped.child]; exact ⟨childMade,childParent,childSafe⟩
  · by_cases isParent : i = p
    · rw [isParent,swapped.parent]; exact ⟨parentMade,parentParent,parentSafe⟩
    · rw [swapped.other i isChild isParent]; exact ⟨rfl,rfl,rfl⟩

theorem exchange_ok {s t : System} {id p : Nat} (family : Family conf s)
    (exchange : Exchange conf s id p child parent) (swapped : Swapped s t id p child parent) (inside : i < s.nextId) :
    BoxOK conf (t.box i) := by
  by_cases isChild : i = id
  · rw [isChild,swapped.child]; exact exchange.childOk
  · by_cases isParent : i = p
    · rw [isParent,swapped.parent]; exact exchange.parentOk
    · rw [swapped.other i isChild isParent]; exact family.ok i inside

theorem exchange_refs {s t : System} {id p : Nat} (family : Family conf s)
    (exchange : Exchange conf s id p child parent) (swapped : Swapped s t id p child parent)
    (box : t.box = Function.update (Function.update s.box p parent) id child) (inside : q < s.nextId) :
    (t.box q).spare = tally s.nextId fun i => (t.box i).heldOn q := by
  have older := (family.older id p exchange.within exchange.made).1
  have within := exchange.within
  obtain ⟨_,_,_,childSpare⟩ := exchange.childKept
  obtain ⟨_,_,_,parentHeld⟩ := exchange.parentKept
  have total : tally s.nextId (fun i => (t.box i).heldOn q) =
      tally s.nextId (fun i => (s.box i).heldOn q) - (s.box id).heldOn q + child.heldOn q := by
    rw [box,tally_update_two (show p < s.nextId by omega) within (show id ≠ p by omega) s.box parent child
      fun _ b => b.heldOn q,parentHeld q]
    omega
  have before := family.refs q inside
  rw [total]
  by_cases isParent : q = p
  · have moved := exchange.moved
    rw [isParent] at before ⊢
    rw [swapped.parent]
    omega
  · have elsewhere := exchange.elsewhere q isParent
    have spare : (t.box q).spare = (s.box q).spare := by
      by_cases isChild : q = id
      · rw [isChild,swapped.child,childSpare]
      · rw [swapped.other q isChild isParent]
    omega

theorem exchange_forkWait {s t : System} {id p : Nat} (family : Family conf s)
    (exchange : Exchange conf s id p child parent) (swapped : Swapped s t id p child parent) (inside : i < s.nextId)
    (waits : (t.box i).op = .forkWait) (made : (t.box i).createParent = some q) : (t.box q).op = .forking i := by
  rw [(exchange_kept exchange swapped i).1] at made
  by_cases isChild : i = id
  · rw [isChild] at waits made
    rw [swapped.child] at waits
    rw [exchange.made] at made
    cases made
    rw [swapped.parent,isChild]
    exact exchange.waits waits
  · by_cases isParent : i = p
    · rw [isParent,swapped.parent] at waits
      exact absurd waits exchange.parentWaits
    · rw [swapped.other i isChild isParent] at waits
      have busy := family.forkWait i q inside waits made
      have notChild : q ≠ id := fun equal => exchange.awake.1 i (equal ▸ busy)
      have notParent : q ≠ p := fun equal => isChild (exchange.alone i (equal ▸ busy))
      rw [swapped.other q notChild notParent]
      exact busy

theorem exchange_forking {s t : System} {id p : Nat} (family : Family conf s)
    (exchange : Exchange conf s id p child parent) (swapped : Swapped s t id p child parent) (inside : q < s.nextId)
    (busy : (t.box q).op = .forking c) :
    c < s.nextId ∧ (t.box c).op = .forkWait ∧ (t.box c).createParent = some q := by
  by_cases isParent : q = p
  · rw [isParent,swapped.parent] at busy
    obtain ⟨rfl,waits⟩ := exchange.forks c busy
    rw [isParent,(exchange_kept exchange swapped _).1,swapped.child]
    exact ⟨exchange.within,waits,exchange.made⟩
  · by_cases isChild : q = id
    · rw [isChild,swapped.child] at busy
      exact absurd busy (exchange.childForks c)
    · rw [swapped.other q isChild isParent] at busy
      obtain ⟨bound,waits,made⟩ := family.forking q c inside busy
      have notChild : c ≠ id := by
        intro equal
        rw [equal,exchange.made] at made
        cases made
        exact isParent rfl
      have notParent : c ≠ p := fun equal => exchange.awake.2.2 (equal ▸ waits)
      rw [swapped.other c notChild notParent]
      exact ⟨bound,waits,made⟩

theorem exchange_exiting {s t : System} {id p : Nat} (family : Family conf s)
    (exchange : Exchange conf s id p child parent) (swapped : Swapped s t id p child parent) (inside : q < s.nextId)
    (busy : (t.box q).op.exiting = some c) :
    c < s.nextId ∧ (t.box c).parent = some q ∧ ∃ after, (t.box c).op = .exitWait after := by
  by_cases isParent : q = p
  · rw [isParent] at busy ⊢
    rw [swapped.parent] at busy
    obtain ⟨rfl,child,waits⟩ := exchange.serves c busy
    rw [swapped.child]
    exact ⟨exchange.within,child,waits⟩
  · have earlier : (s.box q).op.exiting = some c := by
      by_cases isChild : q = id
      · rw [isChild,swapped.child] at busy
        rw [isChild]
        exact exchange.childServes c busy
      · rw [swapped.other q isChild isParent] at busy
        exact busy
    obtain ⟨bound,child,after,waits⟩ := family.exiting q c inside earlier
    have notChild : c ≠ id := by
      intro equal
      rw [equal] at child waits
      rw [exchange.asked after waits] at child
      cases child
      exact isParent rfl
    have notParent : c ≠ p := fun equal => exchange.awake.2.1 after (equal ▸ waits)
    rw [swapped.other c notChild notParent]
    exact ⟨bound,child,after,waits⟩

theorem exchange_family {s t : System} {id p : Nat} (family : Family conf s)
    (exchange : Exchange conf s id p child parent) (same : t.nextId = s.nextId)
    (box : t.box = Function.update (Function.update s.box p parent) id child) : Family conf t := by
  have swapped := exchange_swapped family exchange box
  have kept := exchange_kept exchange swapped
  refine ⟨?_,?_,?_,?_,?_,?_,?_⟩ <;> rw [same]
  · exact fun i => exchange_ok family exchange swapped
  · intro i q inside made
    rw [(kept i).1] at made
    rw [(kept q).2.2]
    exact family.older i q inside made
  · intro i q inside child
    rw [(kept i).2.1] at child
    rw [(kept i).1]
    exact family.parent i q inside child
  · exact fun q => exchange_refs family exchange swapped box
  · exact fun i q => exchange_forkWait family exchange swapped
  · exact fun q c => exchange_forking family exchange swapped
  · exact fun q c => exchange_exiting family exchange swapped

theorem forkEnter_parts {p : Box} (ran : p.forkEnter child usageMB = .ok next) : p.safe.dead = none ∧
    next = {p with children := p.children.insert child,cgRefCount := p.cgRefCount + 1,op := .forking child} := by
  unfold Box.forkEnter at ran
  split at ran
  · cases ran
  · rename_i alive
    dsimp only at ran
    split at ran <;> cases ran
    exact ⟨alive,rfl⟩

theorem alive_count {s : System} (family : Family conf s) (within : p < s.nextId) (idle : (s.box p).op = .idle)
    (alive : (s.box p).safe.dead = none) : (s.box p).destroyed = false ∧ 0 < (s.box p).cgRefCount := by
  have lives := (family.ok p within).lives
  simp only [Lives,idle] at lives
  have standing := alive_of_idle lives alive
  have low := family.low within
  simp only [Box.floor,idle,standing] at low
  simp at low
  exact ⟨standing,by omega⟩

theorem forkEntered_exchange {s : System} {id p : Nat} (family : Family conf s) (within : id < s.nextId)
    (here : (s.box id).op = .startProc) (made : (s.box id).createParent = some p) (idle : (s.box p).op = .idle)
    (ran : (s.box p).forkEnter id usageMB = .ok parent) :
    Exchange conf s id p {s.box id with op := .forkWait} parent := by
  obtain ⟨order,heard⟩ := family.older id p within made
  obtain ⟨alive,rfl⟩ := forkEnter_parts ran
  obtain ⟨standing,positive⟩ := alive_count family (by omega) idle alive
  obtain ⟨releases,lives,amounts⟩ := family.ok id within
  obtain ⟨releases',lives',amounts'⟩ := family.ok p (by omega)
  simp only [Releases,Lives,Amounts,here] at releases lives amounts
  simp only [Releases,Lives,Amounts,idle] at releases' lives' amounts'
  have intact : (s.box p).intact := by
    rcases releases' with ⟨_,intact⟩ | ⟨zero,_⟩
    · exact intact
    · omega
  refine {
    within := within, made := made
    childOk := ⟨releases,lives,amounts⟩
    parentOk := ⟨.inl ⟨by simp only; omega,intact⟩,⟨alive,heard,standing⟩,amounts'⟩
    childKept := ⟨rfl,rfl,rfl,by simp [Box.spare,Box.floor,here]⟩
    parentKept := ⟨rfl,rfl,rfl,by simp [Box.heldOn,Box.forkedFrom,idle]⟩
    moved := ?_
    elsewhere := ?_
    alone := by simp [idle]
    awake := by simp [here,idle]
    waits := fun _ => rfl
    parentWaits := by simp
    forks := by simp
    childForks := by simp
    serves := by simp [Op.exiting,Op.after]
    childServes := by simp [Op.exiting,Op.after]
    asked := by simp [here] }
  · simp [Box.spare,Box.floor,Box.heldOn,Box.forkedFrom,here,idle,made,lives.2]
  · intro q other
    have strange : ¬ p = q := fun equal => other equal.symm
    simp [Box.heldOn,Box.forkedFrom,here,made,lives.2,strange]

theorem forking_ok {p : Box} (ok : BoxOK conf p) (busy : p.op = .forking child) (leaks : Nat)
    (hist : List SandboxEventType) : BoxOK conf {({p with forkLeaks := leaks} : Box).unlock with hist := hist} := by
  obtain ⟨releases,lives,amounts⟩ := ok
  simp only [Releases,Lives,Amounts,busy] at releases lives amounts
  refine ⟨releases,?_,amounts⟩
  simp [Lives,Box.unlock,lives.1,lives.2.2]

theorem forkFailed_exchange {s : System} {id p : Nat} (family : Family conf s) (within : id < s.nextId)
    (here : (s.box id).op = .forkWait) (made : (s.box id).createParent = some p)
    (busy : (s.box p).op = .forking id) :
    Exchange conf s id p ((s.box id).failCreate forkFailed)
      {({s.box p with forkLeaks := (s.box p).forkLeaks + 1} : Box).unlock with hist := hist} := by
  have order := (family.older id p within made).1
  have ok := family.ok id within
  have lives := ok.lives
  simp only [Lives,here] at lives
  refine {
    within := within, made := made
    childOk := failCreate_ok ok (.inr here)
    parentOk := forking_ok (family.ok p (by omega)) busy _ _
    childKept := ⟨rfl,rfl,rfl,by simp [Box.failCreate,Box.spare,Box.floor,here]⟩
    parentKept := ⟨rfl,rfl,rfl,by simp [Box.unlock,Box.heldOn,Box.forkedFrom,busy]⟩
    moved := ?_
    elsewhere := ?_
    alone := by simp [busy]
    awake := by simp [here,busy]
    waits := by simp [Box.failCreate]
    parentWaits := by simp [Box.unlock]
    forks := by simp [Box.unlock]
    childForks := by simp [Box.failCreate]
    serves := by simp [Box.unlock,Op.exiting,Op.after]
    childServes := by simp [Box.failCreate,Op.exiting,Op.after]
    asked := by simp [here] }
  · simp [Box.failCreate,Box.unlock,Box.spare,Box.floor,Box.heldOn,Box.forkedFrom,here,busy,made,lives.2]
  · intro q other
    have strange : ¬ p = q := fun equal => other equal.symm
    simp [Box.failCreate,Box.heldOn,Box.forkedFrom,here,made,lives.2,strange]

theorem forkDone_exchange {s : System} {id p : Nat} (family : Family conf s) (within : id < s.nextId)
    (here : (s.box id).op = .forkWait) (made : (s.box id).createParent = some p)
    (busy : (s.box p).op = .forking id) :
    Exchange conf s id p {s.box id with op := .forked} {(s.box p).unlock with hist := hist} := by
  have order := (family.older id p within made).1
  obtain ⟨releases,lives,amounts⟩ := family.ok id within
  simp only [Releases,Lives,Amounts,here] at releases lives amounts
  -- the child's own reference is held, so nothing of it was released
  have exits : (s.box id).exitCalls = 0 := by
    have low := family.low within
    simp [Box.floor,here,lives.1.2] at low
    rcases releases with ⟨_,intact⟩ | ⟨zero,_⟩
    · exact intact.2.2.2
    · omega
  refine {
    within := within, made := made
    childOk := ⟨releases,lives,amounts⟩
    parentOk := forking_ok (family.ok p (by omega)) busy (s.box p).forkLeaks hist
    childKept := ⟨rfl,rfl,rfl,by simp [Box.spare,Box.floor,here]⟩
    parentKept := ⟨rfl,rfl,rfl,by simp [Box.unlock,Box.heldOn,Box.forkedFrom,busy]⟩
    moved := ?_
    elsewhere := ?_
    alone := by simp [busy]
    awake := by simp [here,busy]
    waits := by simp
    parentWaits := by simp [Box.unlock]
    forks := by simp [Box.unlock]
    childForks := by simp
    serves := by simp [Box.unlock,Op.exiting,Op.after]
    childServes := by simp [Op.exiting,Op.after]
    asked := by simp [here] }
  · simp [Box.unlock,Box.spare,Box.floor,Box.heldOn,Box.forkedFrom,here,busy,made,lives.2,exits]
  · intro q other
    have strange : ¬ p = q := fun equal => other equal.symm
    simp [Box.heldOn,Box.forkedFrom,here,made,lives.2,strange]

theorem exitCall_exchange {s : System} {id p : Nat} (family : Family conf s) (within : id < s.nextId)
    (here : (s.box id).op = .exitCall after) (child : (s.box id).parent = some p) (idle : (s.box p).op = .idle) :
    Exchange conf s id p {s.box id with exitCalls := (s.box id).exitCalls + 1,op := .exitWait after}
      ((s.box p).childExit id) := by
  have made := family.parent id p within child
  obtain ⟨order,heard⟩ := family.older id p within made
  obtain ⟨releases,lives,amounts⟩ := family.ok id within
  obtain ⟨releases',lives',amounts'⟩ := family.ok p (by omega)
  simp only [Releases,Lives,Amounts,here] at releases lives amounts
  simp only [Releases,Lives,Amounts,idle] at releases' lives' amounts'
  obtain ⟨some,zero,cg,mem,root,exits⟩ := releases
  refine {
    within := within, made := made
    childOk := ⟨⟨some,zero,cg,mem,root,by simp [exits]⟩,lives,amounts⟩
    parentOk := ⟨releases',⟨heard,lives'⟩,amounts'⟩
    childKept := ⟨rfl,rfl,rfl,by simp [Box.spare,Box.floor,here]⟩
    parentKept := ⟨rfl,rfl,rfl,by simp [Box.childExit,Box.heldOn,Box.forkedFrom,idle]⟩
    moved := ?_
    elsewhere := ?_
    alone := by simp [idle]
    awake := by simp [here,idle]
    waits := by simp
    parentWaits := by simp [Box.childExit]
    forks := by simp [Box.childExit]
    childForks := by simp
    serves := ?_
    childServes := by simp [here,Op.exiting,Op.after]
    asked := by simp [here] }
  · simp [Box.childExit,Box.spare,Box.floor,Box.heldOn,Box.forkedFrom,here,idle,child,exits]
  · intro q other
    have strange : ¬ p = q := fun equal => other equal.symm
    simp [Box.heldOn,Box.forkedFrom,here,child,strange]
  · intro c busy
    simp only [Box.childExit,Op.exiting,Op.after,Option.some.injEq] at busy
    exact ⟨busy.symm,child,after,rfl⟩

theorem exitReturn_exchange {s : System} {id child : Nat} (family : Family conf s) (within : id < s.nextId)
    (here : (s.box id).op = .returned (.childExit child)) (waits : (s.box child).op = .exitWait after)
    (born : (s.box child).parent = some id) :
    Exchange conf s child id {s.box child with op := .returned after} {(s.box id).unlock with hist := hist} := by
  have inside : child < s.nextId := (family.exiting id child within (by rw [here]; rfl)).1
  have made := family.parent child id inside born
  obtain ⟨releases,lives,amounts⟩ := family.ok child inside
  obtain ⟨releases',lives',amounts'⟩ := family.ok id within
  simp only [Releases,Lives,Amounts,waits] at releases lives amounts
  simp only [Releases,Lives,Amounts,here] at releases' lives' amounts'
  obtain ⟨some,zero,cg,mem,root,exits⟩ := releases
  refine {
    within := inside, made := made
    childOk := ⟨.inr ⟨zero,cg,mem,root,by simp [some,exits]⟩,lives,amounts⟩
    parentOk := ⟨releases',lives'.2,amounts'⟩
    childKept := ⟨rfl,rfl,rfl,by simp [Box.spare,Box.floor,waits]⟩
    parentKept := ⟨rfl,rfl,rfl,by simp [Box.unlock,Box.heldOn,Box.forkedFrom,here]⟩
    moved := ?_
    elsewhere := ?_
    alone := by simp [here]
    awake := by simp [here,waits]
    waits := by simp
    parentWaits := by simp [Box.unlock]
    forks := by simp [Box.unlock]
    childForks := by simp
    serves := by simp [Box.unlock,Op.exiting,Op.after]
    childServes := by simp [waits,Op.exiting,Op.after]
    asked := by simp [born] }
  · simp [Box.unlock,Box.spare,Box.floor,Box.heldOn,Box.forkedFrom,here,waits]
  · intro q other
    simp [Box.heldOn,Box.forkedFrom,waits]

theorem moves_family {s t : System} (family : Family conf s) (move : Moves conf s action t) : Family conf t := by
  cases move with
  | create known => exact create_family family known rfl rfl
  | act within moved _ =>
      have ok := family.ok _ within
      have low := family.low within
      exact put_family family rfl rfl (quiet_marked (localStep_quiet ok low moved) _ _)
        fun _ => ok_marked (localStep_ok ok low moved) _ _
  | memSend within here => exact put_family family rfl rfl (memSend_quiet here) fun inside => memSend_ok (family.ok _ inside) here
  | memPanic => exact kept_family family rfl rfl
  | memReleased => refine answer_family ?_ _; exact kept_family family rfl rfl
  | memQueued => exact kept_family family rfl rfl
  | memGranted => refine answer_family ?_ _; exact kept_family family rfl rfl
  | memKept => exact kept_family family rfl rfl
  | forkRefused within here =>
      refine put_family family rfl rfl ?_ fun inside => failCreate_ok (family.ok _ inside) (.inl here)
      exact goto_quiet (family.ok _ within).lives (.createFailed (.inl here))
  | forkEntered within here made idle ran =>
      exact exchange_family family (forkEntered_exchange family within here made idle ran) rfl rfl
  | forkFailed _ within here made busy =>
      exact exchange_family family (forkFailed_exchange family within here made busy) rfl rfl
  | forkDone within here made busy =>
      exact exchange_family family (forkDone_exchange family within here made busy) rfl rfl
  | exitCall within here child idle =>
      exact exchange_family family (exitCall_exchange family within here child idle) rfl rfl
  | exitReturn within here waits born =>
      exact exchange_family family (exitReturn_exchange family within here waits born) rfl rfl
  | updatePanic => exact kept_family family rfl rfl
  | update => exact kept_family family rfl rfl
  | probe => exact kept_family family rfl rfl
  | decidePanic => exact kept_family family rfl rfl
  | decide _ ran =>
      obtain ⟨tasks,last,next,started⟩ := start_parts _ _
      rw [started]
      exact kept_family family rfl rfl

theorem reached_family (ran : run (step conf) (init conf) actions = some s) : Family conf s :=
  reached_invariant (Family conf) (fun _ _ _ family move => moves_family family move) (init_family conf) ran

end OpenLambda.SockSystem
