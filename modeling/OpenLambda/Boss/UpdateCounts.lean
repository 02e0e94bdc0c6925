import OpenLambda.Boss.WorkerPool
import Mathlib.Data.Nat.Choose.Basic

namespace OpenLambda.Boss

structure Counts where
  target : Int
  starting : Int
  running : Int
  cleaning : Int
  destroying : Int
  queue : Nat

def Counts.size (c : Counts) : Int := c.starting + c.running + c.cleaning + c.destroying

def Counts.short (c : Counts) : Int := c.target - c.starting - c.running

def resumed : List (Int × List Nat) → Goroutine
  | (toBeRecover,due) :: rest => ⟨.choosing (toBeRecover - 1) (some due),rest⟩
  | [] => ⟨.done,[]⟩

-- The steps of updateCluster in these numbers, for a cluster that is large enough.
inductive Tick (c : Counts) : Goroutine → Counts → Goroutine → Prop where
  | sized : Tick c ⟨.sizing,stack⟩ c ⟨.comparing c.size,stack⟩
  | enough : Tick c ⟨.comparing size,stack⟩ c ⟨.counting (c.target - size),stack⟩
  | excess : 0 < -scaleSize - c.cleaning - c.destroying - c.starting → Tick c ⟨.counting scaleSize,stack⟩ c
      ⟨.taking (-scaleSize - c.cleaning - c.destroying - c.starting).toNat,stack⟩
  | noExcess : -scaleSize - c.cleaning - c.destroying - c.starting ≤ 0 →
      Tick c ⟨.counting scaleSize,stack⟩ c ⟨.lacking,stack⟩
  | allCleaned : Tick c ⟨.taking 0,stack⟩ c ⟨.sizing,stack⟩
  | took : c.queue = rest + 1 → Tick c ⟨.taking (left + 1),stack⟩ {c with queue := rest} ⟨.cleaning w left,stack⟩
  | cleaned : Tick c ⟨.cleaning w left,stack⟩ {c with running := c.running - 1,cleaning := c.cleaning + 1}
      ⟨.taking left,stack⟩
  | lack : 0 < c.short → Tick c ⟨.lacking,stack⟩ c ⟨.choosing c.short none,stack⟩
  | noLack : c.short ≤ 0 → Tick c ⟨.lacking,stack⟩ c (resumed stack)
  | allRecovered : (due = none → toBeRecover ≤ 0 ∨ c.cleaning = 0) →
      Tick c ⟨.choosing toBeRecover due,stack⟩ c (resumed stack)
  | chose : 0 < toBeRecover → 0 < c.cleaning → Tick c ⟨.choosing toBeRecover due,stack⟩ c
      ⟨.recovering w toBeRecover rest,stack⟩
  | recovered : 0 < c.cleaning → Tick c ⟨.recovering w toBeRecover due,stack⟩
      {c with running := c.running + 1,cleaning := c.cleaning - 1} ⟨.sizing,(toBeRecover,due) :: stack⟩

-- Where an updateCluster can be. A recover loop that goes on after a call of its
-- own finds that nothing is missing or that no worker is being cleaned.
def Counts.Stage (c : Counts) : Pc → Prop
  | .sizing => True
  | .comparing size => size = c.size
  | .counting scaleSize => scaleSize = c.target - c.size
  | .taking left => c.short = -c.starting - left
  | .cleaning _ left => c.short = -c.starting - left - 1
  | .lacking => -c.starting ≤ c.short
  | .choosing toBeRecover none => 0 < c.short ∧ toBeRecover = c.short
  | .choosing _ (some _) | .done => -c.starting ≤ c.short ∧ (0 < c.short → c.cleaning = 0)
  | .recovering _ toBeRecover _ => -c.starting ≤ c.short ∧ 0 < toBeRecover ∧ (0 < c.short → toBeRecover = c.short) ∧ 0 < c.cleaning
  | _ => False

structure Counts.Steady (c : Counts) (g : Goroutine) : Prop where
  starting : 0 ≤ c.starting
  cleaning : 0 ≤ c.cleaning
  fits : c.target ≤ c.size
  budgets : ∀ entry ∈ g.stack, 1 ≤ entry.1
  ended : g.pc = .done → g.stack = []
  stage : c.Stage g.pc

def load : List (Int × List Nat) → Int
  | [] => 0
  | (toBeRecover,_) :: rest => toBeRecover - 1 + load rest

def pairs (n : Int) : Int := (n.toNat.choose 2 : Nat)

-- The workers that are recovered although nothing is missing: while `n` workers are
-- missing, the calls nest, and each loop of them goes on for as many as it saw missing.
def Counts.demand (c : Counts) (g : Goroutine) : Int := load g.stack + match g.pc with
  | .choosing toBeRecover _ | .recovering _ toBeRecover _ => if 0 < c.short then pairs c.short else max toBeRecover 0
  | _ => pairs c.short

def Pc.inHand : Pc → Int
  | .cleaning _ _ => 1
  | _ => 0

def Counts.room (c : Counts) (g : Goroutine) : Int := c.starting + min c.short 0 + c.queue + g.pc.inHand

def Counts.Over (c : Counts) : Prop := c.target < c.running + c.cleaning

theorem pairs_nonneg (n : Int) : 0 ≤ pairs n := Int.natCast_nonneg _

theorem pairs_none (none : n ≤ 0) : pairs n = 0 := by
  rw [pairs,Int.toNat_of_nonpos none]
  rfl

theorem pairs_pred (more : 0 < n) : pairs n = pairs (n - 1) + (n - 1) := by
  obtain ⟨k,rfl⟩ : ∃ k : Nat, n = k + 1 := ⟨(n - 1).toNat,by omega⟩
  have one : ((k : Int) + 1 - 1).toNat = k := by omega
  have both : ((k : Int) + 1).toNat = k + 1 := by omega
  have next : (k + 1).choose 2 = k + k.choose 2 := by rw [Nat.choose_succ_succ' k 1,Nat.choose_one_right]
  rw [pairs,pairs,one,both,next]
  omega

theorem load_nonneg {stack : List (Int × List Nat)} (budgets : ∀ entry ∈ stack, 1 ≤ entry.1) : 0 ≤ load stack := by
  induction stack with
  | nil => exact Int.le_refl 0
  | cons entry rest ih =>
      have later := ih fun other member => budgets other (List.mem_cons_of_mem _ member)
      have first := budgets entry List.mem_cons_self
      rw [load]
      omega

theorem resumed_steady {c : Counts} (steady : c.Steady ⟨pc,stack⟩) (stage : -c.starting ≤ c.short ∧ (0 < c.short → c.cleaning = 0)) :
    c.Steady (resumed stack) := by
  cases stack with
  | nil => exact {steady with budgets := nofun,ended := fun _ => rfl,stage := stage}
  | cons entry rest =>
      exact {steady with
        budgets := fun other member => steady.budgets other (List.mem_cons_of_mem _ member)
        ended := nofun
        stage := stage}

theorem short_recovered (c : Counts) :
    Counts.short {c with running := c.running + 1,cleaning := c.cleaning - 1} = c.short - 1 := by
  simp only [Counts.short]
  omega

theorem short_cleaned (c : Counts) :
    Counts.short {c with running := c.running - 1,cleaning := c.cleaning + 1} = c.short + 1 := by
  simp only [Counts.short]
  omega

theorem loop_ended {c : Counts} (steady : c.Steady ⟨.choosing toBeRecover due,stack⟩)
    (ended : due = none → toBeRecover ≤ 0 ∨ c.cleaning = 0) : -c.starting ≤ c.short ∧ (0 < c.short → c.cleaning = 0) := by
  have starting := steady.starting
  have stage := steady.stage
  cases due with
  | none =>
      have left := ended rfl
      simp only [Counts.Stage] at stage
      omega
  | some => exact stage

theorem tick_steady {c d : Counts} (steady : c.Steady g) (tick : Tick c g d h) : d.Steady h := by
  have stage := steady.stage
  cases tick with
  | sized => exact {steady with ended := nofun,stage := rfl}
  | enough =>
      refine {steady with ended := nofun,stage := ?_}
      rw [show _ = _ from stage]
      rfl
  | excess more =>
      refine {steady with ended := nofun,stage := ?_}
      simp only [Counts.Stage,Counts.size,Counts.short] at stage ⊢
      omega
  | noExcess none =>
      refine {steady with ended := nofun,stage := ?_}
      simp only [Counts.Stage,Counts.size,Counts.short] at stage ⊢
      omega
  | allCleaned => exact {steady with ended := nofun,stage := trivial}
  | took queue =>
      refine {steady with ended := nofun,stage := ?_}
      simp only [Counts.Stage,Counts.short] at stage ⊢
      omega
  | cleaned =>
      have cleaning := steady.cleaning
      have fits := steady.fits
      refine {steady with cleaning := ?_,fits := ?_,ended := nofun,stage := ?_}
      all_goals simp only [Counts.Stage,Counts.size,Counts.short] at stage fits ⊢
      all_goals omega
  | lack more => exact {steady with ended := nofun,stage := ⟨more,rfl⟩}
  | noLack none => exact resumed_steady steady ⟨stage,fun more => absurd more (Int.not_lt.mpr none)⟩
  | allRecovered ended => exact resumed_steady steady (loop_ended steady ended)
  | @chose toBeRecover due stack w rest more some =>
      refine {steady with ended := nofun,stage := ?_}
      have starting := steady.starting
      cases due with
      | none =>
          simp only [Counts.Stage] at stage ⊢
          omega
      | some =>
          simp only [Counts.Stage] at stage ⊢
          omega
  | recovered some =>
      have fits := steady.fits
      refine {steady with cleaning := ?_,fits := ?_,budgets := ?_,ended := nofun,stage := trivial}
      · exact Int.le_sub_one_of_lt some
      · simp only [Counts.size] at fits ⊢
        omega
      · intro entry member
        rcases List.mem_cons.mp member with rfl | later
        · exact stage.2.1
        · exact steady.budgets entry later

theorem tick_kept {c d : Counts} (tick : Tick c g d h) :
    d.target = c.target ∧ d.running + d.cleaning = c.running + c.cleaning := by
  cases tick with
  | cleaned | recovered =>
      refine ⟨rfl,?_⟩
      dsimp only
      omega
  | _ => exact ⟨rfl,rfl⟩

theorem over_short {c : Counts} (excess : c.Over) : c.starting + c.short < c.cleaning := by
  unfold Counts.Over at excess
  unfold Counts.short
  omega

theorem demand_resumed {c : Counts} (budgets : ∀ entry ∈ stack, 1 ≤ entry.1) (none : c.short ≤ 0) :
    c.demand (resumed stack) = load stack := by
  cases stack with
  | nil => exact (Int.zero_add _).trans (pairs_none none)
  | cons entry rest =>
      have budget := budgets entry List.mem_cons_self
      simp only [Counts.demand,resumed,load,if_neg (Int.not_lt.mpr none)]
      omega

theorem room_resumed (c : Counts) (stack : List (Int × List Nat)) :
    c.room (resumed stack) = c.starting + min c.short 0 + c.queue := by
  cases stack with
  | nil => exact Int.add_zero _
  | cons => exact Int.add_zero _

def Counts.gap (c : Counts) (g : Goroutine) : Int := c.demand g - c.room g

def Patient (g h : Goroutine) : Prop :=
  ∀ toBeRecover due, g.pc = .choosing toBeRecover due → toBeRecover ≤ 0 ∨ ∃ w rest, h.pc = .recovering w toBeRecover rest

theorem tick_gap {c d : Counts} (steady : c.Steady g) (excess : c.Over) (tick : Tick c g d h) :
    d.gap h ≤ c.gap g ∧ (Patient g h → d.gap h = c.gap g) := by
  have same : d.gap h = c.gap g → d.gap h ≤ c.gap g ∧ (Patient g h → d.gap h = c.gap g) :=
    fun equal => ⟨Int.le_of_eq equal,fun _ => equal⟩
  have starting := steady.starting
  have stage := steady.stage
  have more := over_short excess
  cases tick with
  | sized | enough | excess | noExcess | allCleaned => exact same rfl
  | took queue =>
      apply same
      simp only [Counts.gap,Counts.demand,Counts.room,Counts.short,Pc.inHand,queue]
      omega
  | cleaned =>
      apply same
      simp only [Counts.Stage] at stage
      simp only [Counts.gap,Counts.demand,Counts.room,Pc.inHand,short_cleaned]
      rw [pairs_none (by omega),pairs_none (by omega)]
      omega
  | lack more =>
      apply same
      simp only [Counts.gap,Counts.demand,Counts.room,Pc.inHand,if_pos more]
  | noLack none =>
      apply same
      rw [Counts.gap,Counts.gap,demand_resumed steady.budgets none,room_resumed,Counts.demand,Counts.room,pairs_none none]
      simp only [Pc.inHand]
      omega
  | @allRecovered due toBeRecover stack ended =>
      -- something is missing only while a worker can be recovered
      have rest := loop_ended steady ended
      have none : c.short ≤ 0 := by omega
      rw [Counts.gap,Counts.gap,demand_resumed steady.budgets none,room_resumed,Counts.demand,Counts.room]
      simp only [Pc.inHand,if_neg (Int.not_lt.mpr none)]
      refine ⟨by omega,?_⟩
      intro patient
      rcases patient toBeRecover due rfl with spent | ⟨w,rest,stays⟩
      · omega
      · cases stack with
        | nil => cases stays
        | cons => cases stays
  | chose => exact same rfl
  | @recovered w toBeRecover due stack some =>
      apply same
      simp only [Counts.Stage] at stage
      simp only [Counts.gap,Counts.demand,Counts.room,Pc.inHand,load,short_recovered]
      by_cases missing : 0 < c.short
      · rw [if_pos missing,pairs_pred missing,stage.2.2.1 missing]
        omega
      · rw [if_neg missing,pairs_none (by omega)]
        omega

def Counts.ahead (c : Counts) (g : Goroutine) : Nat :=
  if 0 < c.short ∧ c.cleaning = 0 then 0 else (max c.short 0 + c.demand g).toNat

def Pc.place : Pc → Nat
  | .sizing => 6
  | .comparing _ => 5
  | .counting _ => 4
  | .taking _ | .lacking => 3
  | .cleaning _ _ | .choosing _ _ => 2
  | .recovering _ _ _ => 1
  | _ => 0

def Counts.passes (c : Counts) : Pc → Nat
  | .taking _ | .cleaning _ _ => (-c.starting - c.short).toNat + 1
  | _ => if c.short < -c.starting then (-c.starting - c.short).toNat + 2 else 0

def Counts.rank (c : Counts) (g : Goroutine) : Nat × Nat :=
  (c.ahead g,8 * (c.passes g.pc + g.stack.length) + g.pc.place)

theorem lex_of_le {a b x y : Nat} (first : a ≤ b) (second : x < y) : Prod.Lex (· < ·) (· < ·) (a,x) (b,y) := by
  rcases Nat.lt_or_eq_of_le first with less | rfl
  · exact .left _ _ less
  · exact .right _ second

theorem resumed_falls {c : Counts} (steady : c.Steady ⟨pc,stack⟩) (stage : -c.starting ≤ c.short ∧ (0 < c.short → c.cleaning = 0))
    (place : 0 < pc.place) (counted : c.short ≤ 0 → load stack ≤ c.demand ⟨pc,stack⟩) :
    Prod.Lex (· < ·) (· < ·) (c.rank (resumed stack)) (c.rank ⟨pc,stack⟩) := by
  apply lex_of_le
  · unfold Counts.ahead
    by_cases missing : 0 < c.short
    · rw [if_pos ⟨missing,stage.2 missing⟩]
      exact Nat.zero_le _
    · have none := Int.not_lt.mp missing
      have less := counted none
      have total : c.demand (resumed stack) = load stack := demand_resumed steady.budgets none
      rw [if_neg fun both => missing both.1,if_neg fun both => missing both.1,total]
      omega
  · have passed : c.passes (resumed stack).pc = 0 := by
      cases stack with
      | nil => exact if_neg (Int.not_lt.mpr stage.1)
      | cons => exact if_neg (Int.not_lt.mpr stage.1)
    rw [passed]
    cases stack with
    | nil =>
        change 8 * (0 + 0) + 0 < 8 * (c.passes pc + 0) + pc.place
        omega
    | cons entry rest =>
        change 8 * (0 + rest.length) + 2 < 8 * (c.passes pc + (rest.length + 1)) + pc.place
        omega

theorem tick_falls {c d : Counts} (steady : c.Steady g) (tick : Tick c g d h) :
    Prod.Lex (· < ·) (· < ·) (d.rank h) (c.rank g) := by
  have stage := steady.stage
  have starting := steady.starting
  cases tick with
  | sized | enough => exact .right _ (Nat.lt_succ_self _)
  | excess more =>
      simp only [Counts.Stage,Counts.size] at stage
      have past : c.short < -c.starting := by
        unfold Counts.short
        omega
      refine .right _ ?_
      simp only [Counts.passes,Pc.place,if_pos past]
      omega
  | noExcess => exact .right _ (Nat.lt_succ_self _)
  | allCleaned =>
      refine .right _ ?_
      simp only [Counts.Stage] at stage
      simp only [Counts.passes,Pc.place,if_neg (show ¬c.short < -c.starting by omega)]
      omega
  | took queue => exact .right _ (Nat.lt_succ_self _)
  | cleaned =>
      simp only [Counts.Stage] at stage
      have more := short_cleaned c
      apply lex_of_le
      · unfold Counts.ahead
        rw [if_neg (by omega),if_neg (by omega)]
        simp only [Counts.demand,more]
        rw [pairs_none (by omega),pairs_none (by omega)]
        omega
      · simp only [Counts.passes,Pc.place,more]
        omega
  | lack more =>
      refine lex_of_le (Nat.le_of_eq ?_) ?_
      · simp only [Counts.ahead,Counts.demand,if_pos more]
      · exact Nat.lt_succ_self _
  | noLack none =>
      refine resumed_falls steady ⟨stage,fun more => absurd more (Int.not_lt.mpr none)⟩ (by decide) ?_
      intro _
      rw [Counts.demand]
      have pairs := pairs_nonneg c.short
      dsimp only
      omega
  | @allRecovered due toBeRecover stack ended =>
      refine resumed_falls steady (loop_ended steady ended) (Nat.succ_pos 1) ?_
      intro none
      simp only [Counts.demand,if_neg (Int.not_lt.mpr none)]
      omega
  | chose => exact .right _ (Nat.lt_succ_self _)
  | @recovered w toBeRecover due stack some =>
      simp only [Counts.Stage] at stage
      have budgets := load_nonneg steady.budgets
      apply Prod.Lex.left
      simp only [Counts.ahead,Counts.demand,load,short_recovered]
      have pairs := pairs_nonneg (c.short - 1)
      by_cases missing : 0 < c.short
      · have parts := pairs_pred missing
        rw [if_neg (show ¬(0 < c.short ∧ c.cleaning = 0) by omega),if_pos missing]
        have same := stage.2.2.1 missing
        dsimp only at budgets
        split <;> omega
      · rw [if_neg (show ¬(0 < c.short ∧ c.cleaning = 0) by omega),if_neg (show ¬(0 < c.short - 1 ∧ c.cleaning - 1 = 0) by omega)]
        rw [if_neg missing,pairs_none (show c.short - 1 ≤ 0 by omega)]
        dsimp only at budgets
        omega

end OpenLambda.Boss
