import Mathlib.Algebra.Order.BigOperators.Group.List
import Mathlib.Algebra.Order.Ring.Int
import OpenLambda.Lambda.Function

namespace OpenLambda.Stats
open Foundation.Runs

-- RollingAvg with the integers of the machine. The function's model computes with
-- Lambda.RollingAvg, whose numbers are unbounded.
structure RollingAvg where
  size : Int64
  nums : List Int64
  sum : Int64
  avg : Int64
  deriving DecidableEq, Repr

def newRollingAvg (size : Int64) : RollingAvg := ⟨size,[],0,0⟩

def pushed (size : Int64) (nums : List Int64) (num : Int64) : List Int64 :=
  if size.toInt < (num :: nums).length then (num :: nums).dropLast else num :: nums

def pushedSum (size : Int64) (nums : List Int64) (sum num : Int64) : Int64 :=
  if size.toInt < (num :: nums).length then sum + num - (num :: nums).getLast (List.cons_ne_nil _ _) else sum + num

-- A division by zero panics: none.
def RollingAvg.add (r : RollingAvg) (num : Int64) : Option RollingAvg :=
  let sum := pushedSum r.size r.nums r.sum num
  let nums := pushed r.size r.nums num
  if nums.length = 0 then none else some {r with nums := nums,sum := sum,avg := sum / Int64.ofNat nums.length}

def lastOf (n : Nat) (nums : List α) : List α := nums.drop (nums.length - n)

structure Tracks (window : List Int) (r : RollingAvg) : Prop where
  sum : r.sum.toInt = window.sum
  avg : window ≠ [] → r.avg.toInt = window.sum / window.length
  between : ∀ lo hi, window.min? = some lo → window.max? = some hi → lo ≤ r.avg.toInt ∧ r.avg.toInt ≤ hi

theorem lastOf_snoc (nums : List α) (num : α) (positive : 1 ≤ n) :
    (lastOf n (nums ++ [num])).reverse = (num :: (lastOf n nums).reverse).take n := by
  unfold lastOf
  rw [← List.take_reverse,← List.take_reverse,List.reverse_append,List.reverse_singleton,List.singleton_append]
  cases n with
  | zero => omega
  | succ n => rw [List.take_succ_cons,List.take_succ_cons,List.take_take,Nat.min_eq_left (Nat.le_succ n)]

structure Exact (n : Nat) (added : List Int) (a : Lambda.RollingAvg) : Prop where
  size : a.size = n
  nums : a.nums = (lastOf n added).reverse
  sum : a.sum = a.nums.sum
  avg : added ≠ [] → a.avg = a.sum.tdiv a.nums.length

theorem new_exact (n : Nat) : Exact n [] (Lambda.newRollingAvg n) :=
  ⟨rfl,by simp [lastOf,Lambda.newRollingAvg],rfl,fun some => absurd rfl some⟩

theorem add_full {a : Lambda.RollingAvg} (full : a.size < (num :: a.nums).length) :
    (a.add num).size = a.size ∧ (a.add num).nums = (num :: a.nums).dropLast ∧
      (a.add num).sum = a.sum + num - (num :: a.nums).getLast (List.cons_ne_nil _ _) ∧
      (a.add num).avg = (a.add num).sum.tdiv (a.add num).nums.length := by
  simp only [Lambda.RollingAvg.add,if_pos full,and_self]

theorem add_room {a : Lambda.RollingAvg} (room : ¬a.size < (num :: a.nums).length) :
    (a.add num).size = a.size ∧ (a.add num).nums = num :: a.nums ∧ (a.add num).sum = a.sum + num ∧
      (a.add num).avg = (a.add num).sum.tdiv (a.add num).nums.length := by
  simp only [Lambda.RollingAvg.add,if_neg room,and_self]

theorem add_exact (before : Exact n added a) (positive : 1 ≤ n) (num : Int) : Exact n (added ++ [num]) (a.add num) := by
  have window := lastOf_snoc added num positive
  have bound : a.nums.length ≤ n := by
    rw [before.nums,List.length_reverse,lastOf,List.length_drop]
    omega
  rw [← before.nums] at window
  by_cases full : a.size < (num :: a.nums).length
  · obtain ⟨size,nums,sum,avg⟩ := add_full full
    rw [List.length_cons,before.size] at full
    refine ⟨size.trans before.size,?_,?_,fun _ => avg⟩
    · rw [nums,window,List.dropLast_eq_take,List.length_cons]
      congr 1
      omega
    · have sums := congrArg List.sum (List.dropLast_concat_getLast (List.cons_ne_nil num a.nums))
      rw [List.sum_append,List.sum_singleton,List.sum_cons,← before.sum] at sums
      rw [sum,nums]
      omega
  · obtain ⟨size,nums,sum,avg⟩ := add_room full
    rw [List.length_cons,before.size] at full
    refine ⟨size.trans before.size,?_,?_,fun _ => avg⟩
    · rw [nums,window,List.take_of_length_le]
      rw [List.length_cons]
      omega
    · rw [sum,nums,List.sum_cons,before.sum,Int.add_comm]

theorem adds_exact (positive : 1 ≤ n) (added : List Int) :
    Exact n added (added.foldl Lambda.RollingAvg.add (Lambda.newRollingAvg n)) := by
  induction added using List.reverseRecOn with
  | nil => exact new_exact n
  | append_singleton added num ih =>
      rw [List.foldl_append]
      exact add_exact ih positive num

-- The machine's numbers are the unbounded ones, the sum up to its overflow.
structure Follows (r : RollingAvg) (a : Lambda.RollingAvg) : Prop where
  size : r.size.toInt = a.size
  nums : r.nums.map Int64.toInt = a.nums
  sum : r.sum = Int64.ofInt a.sum
  avg : a.nums ≠ [] → r.avg = r.sum / Int64.ofNat a.nums.length

theorem new_follows (size : Int64) (positive : 1 ≤ size.toInt) :
    Follows (newRollingAvg size) (Lambda.newRollingAvg size.toInt.toNat) :=
  ⟨(Int.toNat_of_nonneg (by change 0 ≤ size.toInt; omega)).symm,rfl,rfl,fun some => absurd rfl some⟩

theorem add_returns (r : RollingAvg) (nonempty : (pushed r.size r.nums num).length ≠ 0) : r.add num = some
    {r with
      nums := pushed r.size r.nums num
      sum := pushedSum r.size r.nums r.sum num
      avg := pushedSum r.size r.nums r.sum num / Int64.ofNat (pushed r.size r.nums num).length} := if_neg nonempty

theorem pushed_follows (follows : Follows r a) (num : Int64) :
    (pushed r.size r.nums num).map Int64.toInt = (a.add num.toInt).nums ∧
      pushedSum r.size r.nums r.sum num = Int64.ofInt (a.add num.toInt).sum := by
  have mapped : (num :: r.nums).map Int64.toInt = num.toInt :: a.nums := by rw [List.map_cons,follows.nums]
  have count : (num :: r.nums).length = (num.toInt :: a.nums).length := by rw [← mapped,List.length_map]
  have added : r.sum + num = Int64.ofInt (a.sum + num.toInt) := by
    rw [follows.sum,Int64.ofInt_add,Int64.ofInt_toInt]
  unfold pushed pushedSum
  by_cases full : a.size < (num.toInt :: a.nums).length
  · obtain ⟨_,nums,sum,_⟩ := add_full full
    have longer : r.size.toInt < ((num :: r.nums).length : Int) := by
      rw [follows.size,count]
      omega
    have last : ((num :: r.nums).getLast (List.cons_ne_nil _ _)).toInt =
        (num.toInt :: a.nums).getLast (List.cons_ne_nil _ _) := by
      simp only [← mapped,List.getLast_map]
    rw [if_pos longer,if_pos longer,nums,sum,List.map_dropLast,mapped,Int64.ofInt_sub,← added,← last,Int64.ofInt_toInt]
    exact ⟨rfl,rfl⟩
  · obtain ⟨_,nums,sum,_⟩ := add_room full
    have within : ¬r.size.toInt < ((num :: r.nums).length : Int) := by
      rw [follows.size,count]
      omega
    rw [if_neg within,if_neg within,nums,sum,← mapped]
    exact ⟨rfl,added⟩

theorem add_follows (follows : Follows r a) (positive : 1 ≤ a.size) (num : Int64) :
    ∃ next, r.add num = some next ∧ Follows next (a.add num.toInt) ∧ (a.add num.toInt).size = a.size := by
  obtain ⟨nums,sum⟩ := pushed_follows follows num
  have count : (pushed r.size r.nums num).length = (a.add num.toInt).nums.length := by rw [← nums,List.length_map]
  have parts : (a.add num.toInt).size = a.size ∧ (a.add num.toInt).nums.length ≠ 0 := by
    by_cases full : a.size < (num.toInt :: a.nums).length
    · obtain ⟨size,kept,_⟩ := add_full full
      rw [kept,List.length_dropLast]
      exact ⟨size,by omega⟩
    · obtain ⟨size,kept,_⟩ := add_room full
      rw [kept,List.length_cons]
      exact ⟨size,by omega⟩
  refine ⟨_,add_returns r (count ▸ parts.2),⟨?_,nums,sum,?_⟩,parts.1⟩
  · rw [parts.1]
    exact follows.size
  · intro _
    rw [← count]

theorem adds_follow (follows : Follows r a) (positive : 1 ≤ a.size) (added : List Int64) :
    ∃ last, run RollingAvg.add r added = some last ∧
      Follows last ((added.map Int64.toInt).foldl Lambda.RollingAvg.add a) := by
  induction added generalizing r a with
  | nil => exact ⟨r,rfl,follows⟩
  | cons num rest ih =>
      obtain ⟨next,moved,ahead,size⟩ := add_follows follows positive num
      obtain ⟨last,ran,after⟩ := ih ahead (size.symm ▸ positive)
      exact ⟨last,by rw [run,moved]; exact ran,after⟩

theorem window_count (size : Int64) (positive : 1 ≤ size.toInt) (added : List Int) :
    ((lastOf size.toInt.toNat added).length : Int) < 9223372036854775808 := by
  have most := size.toInt_lt
  rw [lastOf,List.length_drop]
  omega

theorem mean_between {nums : List Int} (nonempty : nums ≠ []) (least : nums.min? = some lo) (most : nums.max? = some hi) :
    lo ≤ nums.sum / nums.length ∧ nums.sum / nums.length ≤ hi := by
  have count : 0 < (nums.length : Int) := Int.natCast_pos.mpr (List.length_pos_iff.mpr nonempty)
  refine ⟨?_,?_⟩
  · have above := List.card_nsmul_le_sum nums lo (List.min?_eq_some_iff.mp least).2
    rw [nsmul_eq_mul,Int.mul_comm] at above
    exact (Int.le_ediv_iff_mul_le count).mpr above
  · have below := List.sum_le_card_nsmul nums hi (List.max?_eq_some_iff.mp most).2
    rw [nsmul_eq_mul,Int.mul_comm] at below
    exact Int.le_of_mul_le_mul_right (Int.le_trans (Int.ediv_mul_le _ (by omega)) below) count

theorem quotient_toInt {n : Nat} (fits : 0 ≤ x.toInt) (count : (n : Int) < 9223372036854775808) :
    (x / Int64.ofNat n).toInt = x.toInt / n := by
  have divisor : (Int64.ofNat n).toInt = n := Int64.toInt_ofNat_of_lt (by omega)
  have least : 0 ≤ x.toInt / n := Int.ediv_nonneg fits (by omega)
  have most : x.toInt / n ≤ x.toInt := Int.ediv_le_self _ fits
  have bound := x.toInt_lt
  rw [Int64.toInt_div,divisor,Int.tdiv_eq_ediv_of_nonneg fits]
  exact Int.bmod_eq_of_le (by omega) (by omega)

theorem tracks_iff (follows : Follows r a) (tracked : Exact n added a) (nonneg : ∀ num ∈ lastOf n added, 0 ≤ num)
    (count : ((lastOf n added).length : Int) < 9223372036854775808) :
    Tracks (lastOf n added) r ↔ (lastOf n added).sum ≤ 9223372036854775807 := by
  have sums : a.sum = (lastOf n added).sum := by rw [tracked.sum,tracked.nums,List.sum_reverse]
  have least : 0 ≤ (lastOf n added).sum := List.sum_nonneg nonneg
  constructor
  · intro tracks
    have bound := r.sum.toInt_lt
    rw [tracks.sum] at bound
    omega
  · intro fits
    have sum : r.sum.toInt = (lastOf n added).sum := by
      rw [follows.sum,sums]
      exact Int64.toInt_ofInt_of_le (by omega) (by omega)
    have avg : lastOf n added ≠ [] → r.avg.toInt = (lastOf n added).sum / (lastOf n added).length := by
      intro some
      have nums : a.nums ≠ [] := by
        rw [tracked.nums]
        exact List.reverse_ne_nil_iff.mpr some
      rw [follows.avg nums,tracked.nums,List.length_reverse,
        quotient_toInt (sum.symm ▸ least) count,sum]
    refine ⟨sum,avg,?_⟩
    intro lo hi low high
    have some : lastOf n added ≠ [] := by
      intro none
      rw [none] at low
      cases low
    rw [avg some]
    exact mean_between some low high

theorem window_tracked (size : Int64) (positive : 1 ≤ size.toInt) (added : List Int64)
    (nonneg : ∀ num ∈ added, 0 ≤ num.toInt) : ∃ r, run RollingAvg.add (newRollingAvg size) added = some r ∧
      r.nums.reverse = lastOf size.toInt.toNat added ∧
      (Tracks (lastOf size.toInt.toNat (added.map Int64.toInt)) r ↔
        (lastOf size.toInt.toNat (added.map Int64.toInt)).sum ≤ 9223372036854775807) := by
  have some : 1 ≤ size.toInt.toNat := by omega
  obtain ⟨r,ran,follows⟩ := adds_follow (new_follows size positive) some added
  have tracked := adds_exact some (added.map Int64.toInt)
  have mapped : lastOf size.toInt.toNat (added.map Int64.toInt) = (lastOf size.toInt.toNat added).map Int64.toInt := by
    rw [lastOf,lastOf,List.length_map,List.map_drop]
  refine ⟨r,ran,?_,tracks_iff follows tracked ?_ (window_count size positive _)⟩
  · have same := follows.nums.trans tracked.nums
    rw [mapped,← List.map_reverse] at same
    rw [List.map_injective_iff.mpr (fun _ _ => Int64.toInt_inj.mp) same,List.reverse_reverse]
  · intro num member
    rw [mapped] at member
    obtain ⟨word,inside,rfl⟩ := List.mem_map.mp member
    exact nonneg word (List.mem_of_mem_drop inside)

theorem window_tracked_three : ∃ r, run RollingAvg.add (newRollingAvg 2) [7,4,5] = some r ∧
    r.nums.reverse = [4,5] ∧ r.sum.toInt = 9 ∧ r.avg.toInt = 4 := by
  have nonneg : ∀ num ∈ ([7,4,5] : List Int64), 0 ≤ num.toInt := List.forall_mem_cons.mpr
    ⟨by decide,List.forall_mem_cons.mpr ⟨by decide,List.forall_mem_singleton.mpr (by decide)⟩⟩
  obtain ⟨r,ran,nums,tracks⟩ := window_tracked 2 (by decide) [7,4,5] nonneg
  have holds := tracks.mpr (by decide)
  exact ⟨r,ran,nums,holds.sum,holds.avg (by decide)⟩

theorem sum_overflows : ∃ r, run RollingAvg.add (newRollingAvg 2) [9223372036854775807,1] = some r ∧
    r.sum.toInt = -9223372036854775808 ∧ r.avg.toInt = -4611686018427387904 ∧
    ¬Tracks (lastOf 2 [9223372036854775807,1]) r := by
  refine ⟨_,rfl,by decide,by decide,?_⟩
  intro tracks
  exact absurd tracks.sum (by decide)

end OpenLambda.Stats
