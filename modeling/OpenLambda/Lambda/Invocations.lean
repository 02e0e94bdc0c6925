import OpenLambda.Foundation.Tally
import OpenLambda.Lambda.Handoffs

namespace OpenLambda.Lambda
open Foundation.Runs Foundation.Tally

def System.places (s : System) (r : Nat) : Int :=
  (ids s.funcChan).count r + s.pc.hand.count r + (ids s.instChan).count r +
    tally s.nextInst (fun i => ((s.inst i).hand.count r : Int)) + (ids s.doneChan).count r

-- The account of every request: it was accepted as often as it was signalled,
-- dropped or is somewhere. The log of an instance can only be trusted to end
-- with the request in its hand while nothing was dropped.
structure Tracked (s : System) : Prop where
  fresh : ∀ r, r ∈ s.accepted → r < s.nextReq
  once : s.accepted.Nodup
  balance : ∀ r, (s.accepted.count r : Int) = s.signalled.count r + s.lost.count r + s.places r
  worked : s.lost = [] → ∀ i, i < s.nextInst → (s.inst i).received = (s.inst i).forwarded ++ (s.inst i).hand

theorem init_tracked : Tracked init where
  fresh := by simp [init]
  once := by simp [init]
  balance := by simp [init,System.places,ids,TaskPc.hand,TaskPc.req,tally_zero]
  worked := by simp [init]

@[simp] theorem ids_cons (req : Invocation) (rest : List Invocation) : ids (req :: rest) = [req.id] ++ ids rest := rfl

@[simp] theorem ids_append (first second : List Invocation) : ids (first ++ second) = ids first ++ ids second :=
  List.map_append

@[simp] theorem ids_nil : ids [] = [] := rfl

theorem work_places {s : System} (born : i < s.nextInst) (l : LambdaInstance) (instChan doneChan : List Invocation)
    (lost : List Nat) (r : Nat) :
    System.places {s.put i l with instChan := instChan,doneChan := doneChan,lost := lost} r =
      s.places r - (s.inst i).hand.count r + l.hand.count r - (ids s.instChan).count r + (ids instChan).count r -
        (ids s.doneChan).count r + (ids doneChan).count r := by
  have moved := tally_update born s.inst l fun _ m => (m.hand.count r : Int)
  simp only [System.places,System.put,moved]
  omega

theorem still_tally (same : Still s t) (r : Nat) :
    tally s.nextInst (fun i => ((t.inst i).hand.count r : Int)) =
      tally s.nextInst (fun i => ((s.inst i).hand.count r : Int)) :=
  tally_congr fun i born => by rw [(same.inst i born).1]

theorem still_places (same : Still s t) (instances : t.nextInst = s.nextInst) (r : Nat) :
    t.places r = s.places r := by
  unfold System.places TaskPc.hand
  rw [instances,still_tally same,same.funcChan,same.instChan,same.doneChan,same.req]

theorem spawned_places (same : Still s t) (instances : t.nextInst = s.nextInst + 1)
    (born : t.inst s.nextInst = newLambdaInstance codeDir config) (r : Nat) : t.places r = s.places r := by
  have idle : (t.inst s.nextInst).hand = [] := by rw [born]; rfl
  unfold System.places TaskPc.hand
  rw [instances,tally_succ,still_tally same,same.funcChan,same.instChan,same.doneChan,same.req,idle]
  simp

theorem still_worked (same : Still s t)
    (worked : s.lost = [] → ∀ i, i < s.nextInst → (s.inst i).received = (s.inst i).forwarded ++ (s.inst i).hand)
    (kept : t.lost = []) (born : i < s.nextInst) : (t.inst i).received = (t.inst i).forwarded ++ (t.inst i).hand := by
  obtain ⟨hand,received,forwarded⟩ := same.inst i born
  rw [hand,received,forwarded]
  exact worked (same.lost.symm.trans kept) i born

theorem put_worked {s : System} (i : Nat) {l : LambdaInstance}
    (worked : ∀ j, j < s.nextInst → (s.inst j).received = (s.inst j).forwarded ++ (s.inst j).hand)
    (same : l.received = l.forwarded ++ l.hand) (j : Nat) (born : j < s.nextInst) :
    ((s.put i l).inst j).received = ((s.put i l).inst j).forwarded ++ ((s.put i l).inst j).hand := by
  by_cases equal : j = i
  · subst j
    simpa [System.put] using same
  · simpa [System.put,equal] using worked j born

theorem moves_balance (moved : Moves s action t)
    (balance : (s.accepted.count r : Int) = s.signalled.count r + s.lost.count r + s.places r) :
    (t.accepted.count r : Int) = t.signalled.count r + t.lost.count r + t.places r := by
  cases moved with
  | still same instances requests =>
      rw [same.accepted,same.signalled,same.lost,still_places same instances]
      exact balance
  | spawned same instances born requests =>
      rw [same.accepted,same.signalled,same.lost,spawned_places same instances born]
      exact balance
  | invoked method =>
      simp only [System.places,ids_append,ids_cons,ids_nil,List.count_append,List.count_nil] at balance ⊢
      omega
  | @received req rest here waiting =>
      have before : s.pc.hand = [] := by rw [here]; rfl
      have after : (TaskPc.pulling req).hand = [req.id] := rfl
      simp only [System.places,before,after,waiting,ids_cons,List.count_append,List.count_nil] at balance ⊢
      omega
  | @dispatched req here =>
      have before : s.pc.hand = [req.id] := by rw [here]; rfl
      have after : TaskPc.scaling.hand = [] := rfl
      simp only [System.places,before,after,ids_append,ids_cons,ids_nil,List.count_append,List.count_nil]
        at balance ⊢
      omega
  | @finished req rest here waiting =>
      have before : s.pc.hand = [] := by rw [here]; rfl
      have after : (TaskPc.signalling req true).hand = [req.id] := rfl
      simp only [System.places,before,after,waiting,ids_cons,List.count_append,List.count_nil] at balance ⊢
      omega
  | @signalled req scale here =>
      have before : s.pc.hand = [req.id] := by rw [here]; rfl
      have after : (if scale then TaskPc.scaling else TaskPc.selecting).hand = [] := by cases scale <;> rfl
      simp only [System.places,before,after,List.count_append,List.count_nil] at balance ⊢
      omega
  | @taken i req rest born here waiting =>
      have idle : (s.inst i).hand = [] := hand_of here
      have moved := work_places born ((s.inst i).accept req) rest s.doneChan s.lost r
      simp only [accept_hand,idle,waiting,ids_cons,List.count_append,List.count_nil,System.put] at moved ⊢
      omega
  | @reported i req failed born here =>
      have held : (s.inst i).hand = [req.id] := hand_of here
      have moved := work_places born ((s.inst i).report req failed) s.instChan (s.doneChan ++ [req]) s.lost r
      simp only [report_hand,held,ids_append,ids_cons,ids_nil,List.count_append,List.count_nil,System.put] at moved ⊢
      omega
  | @grabbed i req rest born here waiting =>
      have idle : (s.inst i).hand = [] := hand_of here
      by_cases gone : (s.inst i).sb = none
      · have moved := work_places born ((s.inst i).grab req) rest s.doneChan (s.lost ++ [req.id]) r
        simp only [grab_hand,gone,if_true,idle,waiting,ids_cons,List.count_append,List.count_nil,System.put]
          at moved ⊢
        omega
      · have moved := work_places born ((s.inst i).grab req) rest s.doneChan s.lost r
        simp only [grab_hand,gone,if_false,idle,waiting,ids_cons,List.count_append,List.count_nil,System.put]
          at moved ⊢
        omega

theorem moves_tracked (tracked : Tracked s) (moved : Moves s action t) : Tracked t where
  fresh := by
    intro r member
    cases moved with
    | still same instances requests => exact Nat.lt_of_lt_of_le (tracked.fresh r (same.accepted ▸ member)) requests
    | spawned same instances born requests => exact requests ▸ tracked.fresh r (same.accepted ▸ member)
    | invoked method =>
        rcases List.mem_append.mp member with older | new
        · exact Nat.lt_succ_of_lt (tracked.fresh r older)
        · exact List.mem_singleton.mp new ▸ Nat.lt_succ_self _
    | _ => exact tracked.fresh r member
  once := by
    cases moved with
    | still same instances requests => exact same.accepted ▸ tracked.once
    | spawned same instances born requests => exact same.accepted ▸ tracked.once
    | invoked method =>
        apply List.nodup_append.mpr
        refine ⟨tracked.once,List.nodup_singleton _,?_⟩
        intro r older q new equal
        have bound := tracked.fresh r older
        rw [equal,List.mem_singleton.mp new] at bound
        exact Nat.lt_irrefl _ bound
    | _ => exact tracked.once
  balance := fun r => moves_balance moved (tracked.balance r)
  worked := by
    intro kept
    cases moved with
    | still same instances requests =>
        intro i born
        exact still_worked same tracked.worked kept (instances ▸ born)
    | @spawned _ codeDir config _ same instances new requests =>
        intro i born
        by_cases older : i < s.nextInst
        · exact still_worked same tracked.worked kept older
        · have equal : i = s.nextInst := by omega
          rw [equal,new]
          rfl
    | @taken i req rest born here waiting =>
        have idle : (s.inst i).hand = [] := hand_of here
        have before := tracked.worked kept i born
        apply put_worked i (tracked.worked kept)
        rw [accept_hand]
        simp [LambdaInstance.accept,before,idle]
    | @reported i req failed born here =>
        have held : (s.inst i).hand = [req.id] := hand_of here
        have before := tracked.worked kept i born
        apply put_worked i (tracked.worked kept)
        rw [report_hand]
        simp [LambdaInstance.report,before,held]
    | @grabbed i req rest born here waiting =>
        have idle : (s.inst i).hand = [] := hand_of here
        by_cases gone : (s.inst i).sb = none
        · simp [gone] at kept
        · simp only [gone,if_false] at kept
          have before := tracked.worked kept i born
          apply put_worked i (tracked.worked kept)
          rw [grab_hand,if_neg gone]
          simp [LambdaInstance.grab,before,idle]
    | _ => exact tracked.worked kept

theorem reached_tracked (ran : run (step conf) init actions = some s) : Tracked s :=
  run_preserves Tracked (fun _ _ _ tracked moved => moves_tracked tracked (step_moves moved)) init_tracked ran

-- An instance does not try to receive without a sandbox while a request waits.
def Careful (s : System) : Action → Prop
  | .grab i => (s.inst i).sb = none → s.instChan = []
  | _ => True

theorem moves_lost (moved : Moves s action t) (other : ∀ i, action ≠ .grab i) : t.lost = s.lost := by
  cases moved with
  | still same => exact same.lost
  | spawned same => exact same.lost
  | @grabbed i => exact absurd rfl (other i)
  | _ => rfl

theorem grab_lost {s : System} (moved : s.grab i = some t) :
    t.lost = [] ↔ s.lost = [] ∧ ((s.inst i).sb = none → s.instChan = []) := by
  unfold System.grab at moved
  split at moved
  · rename_i waiting
    cases moved
    by_cases gone : (s.inst i).sb = none <;> simp [gone,waiting]
  · rename_i empty
    cases moved
    simp [empty,System.put]
  · cases moved

theorem step_lost (moved : step conf s action = some t) : t.lost = [] ↔ s.lost = [] ∧ Careful s action := by
  cases action with
  | grab i =>
      have grabbed : s.grab i = some t := by
        unfold step at moved
        split at moved
        · cases moved
        · exact (Option.ite_none_right_eq_some.mp moved).2
      exact grab_lost grabbed
  | _ =>
      rw [moves_lost (step_moves moved) (by simp)]
      simp [Careful]

theorem run_careful_iff (ran : run (step conf) init actions = some s) :
    Meets (step conf) Careful init actions ↔ s.lost = [] := by
  constructor
  · intro careful
    have kept : ∀ s action t, s.lost = [] → Careful s action → step conf s action = some t → t.lost = [] :=
      fun _ _ _ before met moved => (step_lost moved).mpr ⟨before,met⟩
    exact run_preserves_guarded (fun s => s.lost = []) kept rfl careful ran
  · intro last
    exact (meets_of_last (fun s => s.lost = []) (fun _ _ _ moved => (step_lost moved).mp) ran last).2

theorem places_nonneg (s : System) (r : Nat) : 0 ≤ s.places r := by
  have hands : 0 ≤ tally s.nextInst (fun i => ((s.inst i).hand.count r : Int)) :=
    tally_nonneg fun _ _ => Int.natCast_nonneg _
  unfold System.places
  omega

theorem accepted_once (tracked : Tracked s) (r : Nat) : s.accepted.count r ≤ 1 :=
  List.nodup_iff_count_le_one.mp tracked.once r

theorem lost_nowhere (tracked : Tracked s) (gone : r ∈ s.lost) :
    r ∈ s.accepted ∧ (s.signalled.count r : Int) + s.places r = 0 := by
  have balance := tracked.balance r
  have most := accepted_once tracked r
  have dropped := List.count_pos_iff.mpr gone
  have somewhere := places_nonneg s r
  refine ⟨List.count_pos_iff.mp ?_,?_⟩ <;> omega

theorem kept_somewhere (tracked : Tracked s) (kept : s.lost = []) (here : r ∈ s.accepted) :
    (s.signalled.count r : Int) + s.places r = 1 := by
  have balance := tracked.balance r
  have least := List.count_pos_iff.mpr here
  have most := accepted_once tracked r
  rw [kept,List.count_nil] at balance
  omega

theorem invocation_conserved_iff (ran : run (step conf) init actions = some s) :
    (∀ r, s.signalled.count r ≤ 1) ∧
      (Meets (step conf) Careful init actions ↔
        (∀ r, r ∈ s.accepted → (s.signalled.count r : Int) + s.places r = 1) ∧
          ∀ i, i < s.nextInst → (s.inst i).received = (s.inst i).forwarded ++ (s.inst i).hand) := by
  have tracked := reached_tracked ran
  refine ⟨?_,?_⟩
  · intro r
    have balance := tracked.balance r
    have most := accepted_once tracked r
    have somewhere := places_nonneg s r
    omega
  · rw [run_careful_iff ran]
    constructor
    · intro kept
      exact ⟨fun r here => kept_somewhere tracked kept here,tracked.worked kept⟩
    · rintro ⟨exact,_⟩
      apply List.eq_nil_iff_forall_not_mem.mpr
      intro r gone
      obtain ⟨here,nowhere⟩ := lost_nowhere tracked gone
      have one := exact r here
      omega

def codeOf (reuse : Bool) : Pulled := ⟨.ok "code",.ok (codeMeta .native reuse ["*"]),none,none⟩

def dispatched (reuse : Bool) : List Action := [.receive,.pull (codeOf reuse),.check,.dispatch,.scale]

def twoRequests (reuse : Bool) : List Action :=
  [.invoke "POST",.invoke "POST"] ++ dispatched reuse ++ dispatched reuse ++
    [.take 0,.act 0 (.create none),.act 0 (.roundTrip (.replied 200 "ok" none) 3),.report 0,
      .act 0 .settle,.act 0 .checkKill,.grab 0,.finished,.signal,.scale]

theorem invocation_conserved_reuse :
    ∃ s, run (step ⟨false,0⟩) init (twoRequests true) = some s ∧ s.accepted = [0,1] ∧
      (∀ r, r ∈ s.accepted → (s.signalled.count r : Int) + s.places r = 1) ∧
      (s.inst 0).pc.req.isSome = true := by
  have seen : (run (step ⟨false,0⟩) init (twoRequests true)).map
      (fun s => (s.accepted,s.lost,(s.inst 0).pc.req.isSome)) = some ([0,1],[],true) := by decide +kernel
  obtain ⟨s,ran,facts⟩ := Option.map_eq_some_iff.mp seen
  simp only [Prod.mk.injEq] at facts
  obtain ⟨accepted,kept,busy⟩ := facts
  have conserved := invocation_conserved_iff ran
  exact ⟨s,ran,accepted,(conserved.2.mp ((run_careful_iff ran).mpr kept)).1,busy⟩

-- With reuse disabled the second request is received and dropped: its client
-- waits on done forever, while Task and the instance wait for new requests.
theorem invocation_lost :
    ∃ s, run (step ⟨false,0⟩) init (twoRequests false) = some s ∧
      1 ∈ s.accepted ∧ 1 ∉ s.signalled ∧ s.places 1 = 0 ∧
      (s.inst 0).received = [0,1] ∧ (s.inst 0).forwarded = [0] ∧ (s.inst 0).pc = .waiting := by
  have seen : (run (step ⟨false,0⟩) init (twoRequests false)).map
      (fun s => (s.places 1,[s.accepted,s.signalled,(s.inst 0).received,(s.inst 0).forwarded],(s.inst 0).pc)) =
        some (0,[[0,1],[0],[0,1],[0]],.waiting) := by decide +kernel
  obtain ⟨s,ran,facts⟩ := Option.map_eq_some_iff.mp seen
  simp only [Prod.mk.injEq,List.cons.injEq] at facts
  obtain ⟨nowhere,⟨accepted,signalled,received,forwarded,_⟩,waiting⟩ := facts
  exact ⟨s,ran,by simp [accepted],by simp [signalled],nowhere,received,forwarded,waiting⟩

end OpenLambda.Lambda
