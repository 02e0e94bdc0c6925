import OpenLambda.Wasm.Functions

namespace OpenLambda.Functions
open Foundation.Hands Foundation.Runs

-- The instances of one function: those that requests for it have, the idle and
-- the discarded ones, and all that were created.
def Request.handFor (request : Request) (fn : Nat) : Option Nat :=
  if request.function = fn then request.stage.holding else none

def Worker.hand (s : Worker) (fn r : Nat) : Option Nat := (s.request r).handFor fn

def Worker.stock (s : Worker) (fn : Nat) : List Nat := s.idle fn ++ s.discarded fn

def Worker.Created (s : Worker) (fn i : Nat) : Prop := 0 < i ∧ i < s.nextInstance ∧ (s.inst i).function = fn

def Worker.Carried (s t : Worker) : Prop :=
  ∀ fn, Carry (s.hand fn) (s.stock fn) (s.Created fn) (t.hand fn) (t.stock fn) (t.Created fn)

theorem carried_at {s t : Worker} (f : Nat)
    (mine : Carry (s.hand f) (s.stock f) (s.Created f) (t.hand f) (t.stock f) (t.Created f))
    (others : ∀ fn, fn ≠ f → t.hand fn = s.hand fn ∧ t.stock fn = s.stock fn ∧ t.Created fn = s.Created fn) :
    s.Carried t := by
  intro fn
  by_cases same : fn = f
  · subst fn
    exact mine
  · obtain ⟨hand,stock,created⟩ := others fn same
    rw [hand,stock,created]
    exact .keep (.refl _)

theorem still_carried {s t : Worker} (hand : t.hand = s.hand) (stock : t.stock = s.stock)
    (created : t.Created = s.Created) : s.Carried t := by
  intro fn
  rw [hand,stock,created]
  exact .keep (.refl _)

theorem mine_hand (s : Worker) (r : Nat) : s.hand (s.request r).function r = (s.request r).stage.holding := if_pos rfl

theorem put_hand_self {s t : Worker} {r : Nat} {req : Request} (put : t.request = Function.update s.request r req)
    (same : req.function = (s.request r).function) :
    t.hand (s.request r).function = Function.update (s.hand (s.request r).function) r req.stage.holding := by
  funext q
  unfold Worker.hand
  rw [put]
  by_cases equal : q = r
  · subst q
    rw [Function.update_self,Function.update_self]
    exact if_pos same
  · rw [Function.update_of_ne equal,Function.update_of_ne equal]

theorem put_hand_other {s t : Worker} {r : Nat} {req : Request} (put : t.request = Function.update s.request r req)
    (same : req.function = (s.request r).function) (other : fn ≠ (s.request r).function) :
    t.hand fn = s.hand fn := by
  funext q
  unfold Worker.hand
  rw [put]
  by_cases equal : q = r
  · subst q
    rw [Function.update_self]
    unfold Request.handFor
    rw [if_neg (same ▸ other.symm),if_neg other.symm]
  · rw [Function.update_of_ne equal]

theorem put_hand {s t : Worker} {r : Nat} {req : Request} (put : t.request = Function.update s.request r req)
    (same : req.function = (s.request r).function) (kept : req.stage.holding = (s.request r).stage.holding) :
    t.hand = s.hand := by
  funext fn
  by_cases mine : fn = (s.request r).function
  · subst fn
    rw [put_hand_self put same,kept,← mine_hand]
    exact Function.update_eq_self r _
  · exact put_hand_other put same mine

theorem goto_carried (s : Worker) (r : Nat) (stage : Stage) (kept : stage.holding = (s.request r).stage.holding) :
    s.Carried (s.goto r stage) :=
  still_carried (put_hand rfl rfl kept) rfl rfl

theorem give_carried {s t : Worker} {stage : Stage} (holds : (s.request r).stage.holding = some i)
    (put : t.request = Function.update s.request r {s.request r with stage := stage}) (gone : stage.holding = none)
    (stock : (t.stock (s.request r).function).Perm (i :: s.stock (s.request r).function))
    (others : ∀ fn, fn ≠ (s.request r).function → t.stock fn = s.stock fn) (created : t.Created = s.Created) :
    s.Carried t := by
  apply carried_at (s.request r).function
  · rw [put_hand_self put rfl,gone,created]
    exact .give r ((mine_hand s r).trans holds) stock
  · intro fn other
    exact ⟨put_hand_other put rfl other,others fn other,congrFun created fn⟩

theorem discard_carried {s : Worker} {stage : Stage} (holds : (s.request r).stage.holding = some i)
    (gone : stage.holding = none) : s.Carried ((s.discard r i).goto r stage) := by
  refine give_carried holds rfl gone ?_ ?_ rfl
  · unfold Worker.stock Worker.goto Worker.discard
    dsimp only
    rw [Function.update_self,← List.append_assoc]
    exact List.perm_append_singleton i _
  · intro fn other
    unfold Worker.stock Worker.goto Worker.discard
    dsimp only
    rw [Function.update_of_ne other]

theorem push_carried {s : Worker} (holds : (s.request r).stage.holding = some i) :
    s.Carried {s.goto r (.finished response) with
      idle := Function.update s.idle (s.request r).function (s.idle (s.request r).function ++ [i])} := by
  refine give_carried holds rfl rfl ?_ ?_ rfl
  · unfold Worker.stock Worker.goto
    dsimp only
    rw [Function.update_self,List.append_assoc]
    exact List.perm_middle
  · intro fn other
    unfold Worker.stock Worker.goto
    dsimp only
    rw [Function.update_of_ne other]

theorem execute_carried (moved : Worker.execute loaded s r function = some t) : s.Carried t := by
  obtain ⟨here,rfl⟩ := execute_parts moved
  refine still_carried ?_ rfl rfl
  funext fn q
  unfold Worker.hand
  dsimp only
  by_cases equal : q = r
  · subst q
    rw [Function.update_self]
    unfold Request.handFor
    rw [here]
    cases loaded function <;> simp [Stage.holding]
  · rw [Function.update_of_ne equal]

theorem refresh_created (s : Worker) (i handle : Nat) :
    Worker.Created {s with inst := Function.update s.inst i {s.inst i with handle := handle}} = s.Created := by
  funext fn j
  unfold Worker.Created
  dsimp only
  by_cases same : j = i
  · subst j
    rw [Function.update_self]
  · rw [Function.update_of_ne same]

theorem new_created (s : Worker) (f r fn j : Nat) (positive : 0 < s.nextInstance) :
    Worker.Created {s with
      inst := Function.update s.inst s.nextInstance ⟨f,r⟩
      nextInstance := s.nextInstance + 1} fn j ↔ s.Created fn j ∨ fn = f ∧ j = s.nextInstance := by
  unfold Worker.Created
  dsimp only
  by_cases same : j = s.nextInstance
  · subst j
    rw [Function.update_self]
    constructor
    · intro known
      exact .inr ⟨known.2.2.symm,rfl⟩
    · rintro (known | ⟨rfl,_⟩)
      · exact absurd known.2.1 (Nat.lt_irrefl _)
      · exact ⟨positive,Nat.lt_succ_self _,rfl⟩
  · rw [Function.update_of_ne same]
    constructor
    · intro known
      exact .inl ⟨known.1,Nat.lt_of_le_of_ne (Nat.le_of_lt_succ known.2.1) same,known.2.2⟩
    · rintro (known | ⟨_,new⟩)
      · exact ⟨known.1,Nat.lt_succ_of_lt known.2.1,known.2.2⟩
      · exact absurd new same

theorem pop_carried {s t : Worker} (waits : (s.request r).stage.holding = none)
    (front : s.idle (s.request r).function = i :: rest)
    (put : t.request = Function.update s.request r {s.request r with stage := .running i})
    (idle : t.idle = Function.update s.idle (s.request r).function rest) (discarded : t.discarded = s.discarded)
    (created : t.Created = s.Created) : s.Carried t := by
  apply carried_at (s.request r).function
  · rw [put_hand_self put rfl,created]
    apply Carry.take r ((mine_hand s r).trans waits)
    unfold Worker.stock
    rw [idle,discarded,Function.update_self,front]
    exact .refl _
  · intro fn other
    refine ⟨put_hand_other put rfl other,?_,congrFun created fn⟩
    unfold Worker.stock
    rw [idle,discarded,Function.update_of_ne other]

theorem new_carried {s t : Worker} (waits : (s.request r).stage.holding = none)
    (put : t.request = Function.update s.request r {s.request r with stage := .creating s.nextInstance})
    (stock : t.stock = s.stock)
    (created : ∀ fn j, t.Created fn j ↔ s.Created fn j ∨ fn = (s.request r).function ∧ j = s.nextInstance) :
    s.Carried t := by
  apply carried_at (s.request r).function
  · rw [put_hand_self put rfl,stock]
    apply Carry.fresh r ((mine_hand s r).trans waits)
    · exact fun known => absurd known.2.1 (Nat.lt_irrefl _)
    · intro j
      rw [created]
      exact or_congr_right (and_iff_right rfl)
  · intro fn other
    refine ⟨put_hand_other put rfl other,congrFun stock fn,?_⟩
    funext j
    rw [eq_iff_iff,created]
    exact or_iff_left fun new => other new.1

theorem setResultOf_carried {s : Worker} (holds : (s.request r).stage.holding = some i) (bytes : List UInt8) :
    s.Carried (s.setResultOf r i bytes) := by
  unfold Worker.setResultOf
  split
  · exact discard_carried holds rfl
  · exact still_carried (put_hand rfl rfl rfl) rfl rfl

theorem step_carried {s t : Worker} (positive : 0 < s.nextInstance) (moved : step loaded s action = some t) :
    s.Carried t := by
  cases action with
  | execute r function => exact execute_carried moved
  | getIdleInstance r =>
      obtain ⟨here,⟨i,rest,front,rfl⟩ | rfl⟩ := getIdleInstance_parts moved
      · exact pop_carried (congrArg Stage.holding here) front rfl rfl rfl (refresh_created s i r)
      · exact new_carried (congrArg Stage.holding here) rfl rfl (fun fn j => new_created s _ r fn j positive)
  | created r =>
      obtain ⟨i,here,rfl⟩ := created_parts moved
      exact goto_carried s r _ (congrArg Stage.holding here).symm
  | setResult r bytes =>
      obtain ⟨i,calls,rfl⟩ := setResult_parts moved
      exact setResultOf_carried (calling_holding calls) bytes
  | trap r =>
      obtain ⟨i,here,rfl⟩ := trap_parts moved
      exact goto_carried s r _ (congrArg Stage.holding here).symm
  | returns r =>
      obtain ⟨i,here,rfl⟩ := returns_parts moved
      exact goto_carried s r _ (congrArg Stage.holding here).symm
  | take r =>
      obtain ⟨i,here,rfl⟩ := take_parts moved
      exact still_carried (put_hand rfl rfl (congrArg Stage.holding here).symm) rfl rfl
  | markIdle r =>
      obtain ⟨i,response,here,rfl | rfl⟩ := markIdle_parts moved
      · exact goto_carried s r _ (congrArg Stage.holding here).symm
      · exact discard_carried (congrArg Stage.holding here) rfl
  | push r =>
      obtain ⟨i,response,here,rfl⟩ := push_parts moved
      exact push_carried (congrArg Stage.holding here)
  | abort r =>
      rcases abort_parts moved with ⟨here,rfl⟩ | ⟨i,calls,rfl⟩
      · exact goto_carried s r _ (congrArg Stage.holding here).symm
      · exact discard_carried (calling_holding calls) rfl

structure Worker.Owned (s : Worker) : Prop where
  positive : 0 < s.nextInstance
  account : ∀ fn, Accounted (s.hand fn) (s.stock fn) (s.Created fn)

theorem init_owned : init.Owned where
  positive := Nat.one_pos
  account := by
    intro fn
    have nobody : ∀ r, init.hand fn r = none := fun r => ite_self none
    refine ⟨⟨List.nodup_nil,?_,?_⟩,?_,?_,?_⟩
    · intro r q i holds
      cases (nobody r).symm.trans holds
    · intro r i holds
      cases (nobody r).symm.trans holds
    · intro i member
      cases member
    · intro r i holds
      cases (nobody r).symm.trans holds
    · intro i known
      exact absurd known.2.1 (Nat.not_lt.mpr known.1)

theorem step_positive {s t : Worker} (positive : 0 < s.nextInstance) (moved : step loaded s action = some t) :
    0 < t.nextInstance := by
  cases action with
  | execute r function => obtain ⟨_,rfl⟩ := execute_parts moved; exact positive
  | getIdleInstance r =>
      obtain ⟨_,⟨i,rest,_,rfl⟩ | rfl⟩ := getIdleInstance_parts moved
      · exact positive
      · exact Nat.succ_pos _
  | created r => obtain ⟨_,_,rfl⟩ := created_parts moved; exact positive
  | setResult r bytes =>
      obtain ⟨i,_,rfl⟩ := setResult_parts moved
      unfold Worker.setResultOf
      split <;> exact positive
  | trap r => obtain ⟨_,_,rfl⟩ := trap_parts moved; exact positive
  | returns r => obtain ⟨_,_,rfl⟩ := returns_parts moved; exact positive
  | take r => obtain ⟨_,_,rfl⟩ := take_parts moved; exact positive
  | markIdle r => obtain ⟨_,_,_,rfl | rfl⟩ := markIdle_parts moved <;> exact positive
  | push r => obtain ⟨_,_,_,rfl⟩ := push_parts moved; exact positive
  | abort r => rcases abort_parts moved with ⟨_,rfl⟩ | ⟨_,_,rfl⟩ <;> exact positive

theorem step_owned {s t : Worker} (owned : s.Owned) (moved : step loaded s action = some t) : t.Owned where
  positive := step_positive owned.positive moved
  account := fun fn => carry_accounted (owned.account fn) (step_carried owned.positive moved fn)

theorem reached_owned (reached : run (step loaded) init actions = some s) : s.Owned :=
  run_preserves Worker.Owned (fun _ _ _ owned moved => step_owned owned moved) init_owned reached

theorem held_created {s : Worker} (owned : s.Owned) (holds : (s.request r).stage.holding = some i) :
    s.Created (s.request r).function i :=
  (owned.account _).held r i ((mine_hand s r).trans holds)

theorem stock_created {s : Worker} (owned : s.Owned) (member : i ∈ s.stock fn) : s.Created fn i :=
  (owned.account fn).waiting i member

theorem stock_not_held {s : Worker} (owned : s.Owned) (member : i ∈ s.stock fn) (r : Nat) :
    (s.request r).stage.holding ≠ some i := by
  intro holds
  have same : (s.request r).function = fn :=
    (held_created owned holds).2.2.symm.trans (stock_created owned member).2.2
  subst fn
  exact (owned.account _).custody.outside r i ((mine_hand s r).trans holds) member

theorem held_once {s : Worker} (owned : s.Owned) (mine : (s.request r).stage.holding = some i)
    (other : (s.request q).stage.holding = some i) : q = r := by
  have same : (s.request q).function = (s.request r).function :=
    (held_created owned other).2.2.symm.trans (held_created owned mine).2.2
  refine (owned.account (s.request r).function).custody.apart q r i ?_ ((mine_hand s r).trans mine)
  rw [← same,mine_hand]
  exact other

inductive Worker.OnePlace (s : Worker) (i : Nat) : Prop where
  | idle (once : (s.idle (s.inst i).function).count i = 1) (elsewhere : ∀ fn, fn ≠ (s.inst i).function → i ∉ s.idle fn)
      (free : ∀ r, (s.request r).stage.holding ≠ some i) (kept : ∀ fn, i ∉ s.discarded fn)
  | held (r : Nat) (holds : (s.request r).stage.holding = some i) (own : (s.request r).function = (s.inst i).function)
      (alone : ∀ q, (s.request q).stage.holding = some i → q = r) (busy : ∀ fn, i ∉ s.idle fn)
      (kept : ∀ fn, i ∉ s.discarded fn)
  | discarded (gone : i ∈ s.discarded (s.inst i).function) (free : ∀ r, (s.request r).stage.holding ≠ some i)
      (away : ∀ fn, i ∉ s.idle fn)

theorem created_onePlace {s : Worker} (owned : s.Owned) (known : s.Created fn i) : s.OnePlace i := by
  obtain rfl := known.2.2
  have account := owned.account (s.inst i).function
  have own : ∀ fn, i ∈ s.stock fn → fn = (s.inst i).function := fun fn member =>
    (stock_created owned member).2.2.symm
  have idle_stock : ∀ fn, i ∈ s.idle fn → i ∈ s.stock fn := fun fn => List.mem_append_left _
  have discarded_stock : ∀ fn, i ∈ s.discarded fn → i ∈ s.stock fn := fun fn => List.mem_append_right _
  obtain ⟨distinct,_,apart⟩ := List.nodup_append.mp account.custody.distinct
  rcases account.found i known with member | ⟨r,holds⟩
  · have free := stock_not_held owned member
    rcases List.mem_append.mp member with waiting | gone
    · refine .idle (List.count_eq_one_of_mem distinct waiting) ?_ free ?_
      · exact fun fn other there => other (own fn (idle_stock fn there))
      · intro fn there
        obtain rfl := own fn (discarded_stock fn there)
        exact apart i waiting i there rfl
    · refine .discarded gone free ?_
      intro fn there
      obtain rfl := own fn (idle_stock fn there)
      exact apart i there i gone rfl
  · have has : (s.request r).function = (s.inst i).function ∧ (s.request r).stage.holding = some i := by
      change (if _ then _ else _) = _ at holds
      split at holds
      · exact ⟨‹_›,holds⟩
      · cases holds
    refine .held r has.2 has.1 (fun q other => held_once owned has.2 other) ?_ ?_
    · exact fun fn there => stock_not_held owned (idle_stock fn there) r has.2
    · exact fun fn there => stock_not_held owned (discarded_stock fn there) r has.2

end OpenLambda.Functions
