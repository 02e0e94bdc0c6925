import OpenLambda.Foundation.Logs
import Mathlib.Data.List.Infix
import Mathlib.Data.List.Perm.Basic
import Mathlib.Algebra.BigOperators.Group.List.Basic
import Mathlib.Algebra.Ring.Int.Defs

namespace OpenLambda.MemPool
open Foundation.Logs

-- `resp` stands for the response channel: whoever is blocked on it.
structure MemReq (α : Type) where
  mb : Int
  resp : α
  deriving DecidableEq, Repr

-- `memTask` is either blocked on `memRequests` or about to look at the front of
-- its waiters. Receiving and serving are separate, since a release and an older
-- waiter are answered one after the other in the same iteration.
inductive Phase where
  | receiving
  | serving
  deriving DecidableEq, Repr

structure Pool (α : Type) where
  totalMB : Int
  availableMB : Int
  memRequestsWaiting : List (MemReq α)
  phase : Phase
  deriving DecidableEq, Repr

-- A response carries the memory that remains right after the adjustment.
structure Answer (α : Type) where
  req : MemReq α
  availableMB : Int
  deriving DecidableEq, Repr

def newMemPool (totalMB : Int) : Pool α := ⟨totalMB,totalMB,[],.receiving⟩

def oversized (pool : Pool α) (req : MemReq α) : String :=
  "received request for " ++ toString (-req.mb) ++ " MB to pool of total size " ++ toString pool.totalMB ++ " MB"

def receive (pool : Pool α) (req : MemReq α) : Except String (Pool α × List (Answer α)) :=
  if pool.totalMB + req.mb < 0 then .error (oversized pool req)
  else if req.mb ≥ 0 then
    .ok ({pool with availableMB := pool.availableMB + req.mb,phase := .serving},
      [⟨req,pool.availableMB + req.mb⟩])
  else .ok ({pool with memRequestsWaiting := pool.memRequestsWaiting ++ [req],phase := .serving},[])

-- POLICY of the source: only the front is looked at, and only once.
def serve (pool : Pool α) : Pool α × List (Answer α) :=
  match pool.memRequestsWaiting with
  | [] => ({pool with phase := .receiving},[])
  | front :: rest =>
      if pool.availableMB + front.mb ≥ 0 then
        ({pool with availableMB := pool.availableMB + front.mb,memRequestsWaiting := rest,phase := .receiving},
          [⟨front,pool.availableMB + front.mb⟩])
      else ({pool with phase := .receiving},[])

structure Served (α : Type) where
  pool : Pool α
  answers : List (Answer α)
  deriving DecidableEq, Repr

def iterate (s : Served α) (req : MemReq α) : Except String (Served α) :=
  match receive s.pool req with
  | .error message => .error message
  | .ok (middle,first) =>
      let (after,second) := serve middle
      .ok ⟨after,s.answers ++ first ++ second⟩

def iterates : Served α → List (MemReq α) → Except String (Served α)
  | s,[] => .ok s
  | s,req :: rest =>
      match iterate s req with
      | .error message => .error message
      | .ok next => iterates next rest

def memTask (totalMB : Int) (requests : List (MemReq α)) : Except String (Served α) :=
  iterates ⟨newMemPool totalMB,[]⟩ requests

theorem receive_parts {pool : Pool α} (ran : receive pool req = .ok (next,out)) :
    0 ≤ pool.totalMB + req.mb ∧
      ((0 ≤ req.mb ∧ out = [⟨req,pool.availableMB + req.mb⟩] ∧
          next = {pool with availableMB := pool.availableMB + req.mb,phase := .serving}) ∨
        (req.mb < 0 ∧ out = [] ∧
          next = {pool with memRequestsWaiting := pool.memRequestsWaiting ++ [req],phase := .serving})) := by
  unfold receive at ran
  split at ran
  · cases ran
  · rename_i fits
    refine ⟨by omega,?_⟩
    split at ran
    · rename_i release
      cases ran
      exact .inl ⟨release,rfl,rfl⟩
    · rename_i acquire
      cases ran
      exact .inr ⟨by omega,rfl,rfl⟩

theorem serve_parts (pool : Pool α) :
    (∃ front rest, pool.memRequestsWaiting = front :: rest ∧ 0 ≤ pool.availableMB + front.mb ∧
      serve pool = ({pool with availableMB := pool.availableMB + front.mb,memRequestsWaiting := rest,phase := .receiving},
        [⟨front,pool.availableMB + front.mb⟩])) ∨
    ((∀ front rest, pool.memRequestsWaiting = front :: rest → pool.availableMB + front.mb < 0) ∧
      serve pool = ({pool with phase := .receiving},[])) := by
  unfold serve
  split
  · rename_i empty
    exact .inr ⟨by simp [empty],rfl⟩
  · rename_i front rest waiting
    split
    · rename_i fits
      exact .inl ⟨front,rest,waiting,fits,rfl⟩
    · rename_i blocked
      refine .inr ⟨?_,rfl⟩
      intro other tail same
      rw [waiting] at same
      cases same
      omega

theorem full_grab (pool : Pool α) (client : α) (nonneg : 0 ≤ pool.totalMB)
    (full : pool.availableMB = pool.totalMB) (free : pool.memRequestsWaiting = []) :
    ∃ next out, receive pool ⟨-pool.totalMB,client⟩ = .ok (next,out) ∧
      ⟨⟨-pool.totalMB,client⟩,0⟩ ∈ out ++ (serve next).2 := by
  by_cases empty : pool.totalMB = 0
  · refine ⟨_,_,by simp [receive,empty]; exact ⟨rfl,rfl⟩,?_⟩
    simp [full,empty]
  · have debit : ¬ pool.totalMB ≤ 0 := by omega
    refine ⟨_,_,by simp [receive,debit]; exact ⟨rfl,rfl⟩,?_⟩
    simp [serve,free,full]

theorem iterate_parts {s : Served α} (ran : iterate s req = .ok next) :
    ∃ middle first, receive s.pool req = .ok (middle,first) ∧
      next = ⟨(serve middle).1,s.answers ++ first ++ (serve middle).2⟩ := by
  unfold iterate at ran
  split at ran
  · cases ran
  · rename_i middle first received
    cases ran
    exact ⟨middle,first,received,rfl⟩

theorem iterate_ok (s : Served α) (fits : 0 ≤ s.pool.totalMB + req.mb) : ∃ next, iterate s req = .ok next := by
  have small : ¬ s.pool.totalMB + req.mb < 0 := by omega
  by_cases release : req.mb ≥ 0 <;> simp [iterate,receive,small,release]

theorem iterates_snoc {s : Served α} (ran : iterates s (requests ++ [req]) = .ok t) :
    ∃ middle, iterates s requests = .ok middle ∧ iterate middle req = .ok t := by
  induction requests generalizing s with
  | nil =>
      cases moved : iterate s req with
      | error message => simp [iterates,moved] at ran
      | ok next => exact ⟨s,rfl,by simpa [iterates,moved] using ran⟩
  | cons head rest ih =>
      cases moved : iterate s head with
      | error message => simp [iterates,moved] at ran
      | ok next =>
          simp only [List.cons_append,iterates,moved] at ran
          obtain ⟨middle,earlier,last⟩ := ih ran
          exact ⟨middle,by simpa [iterates,moved] using earlier,last⟩

-- The account after any number of received requests. `values` reads the answer
-- log at every position, so it also covers the moment between the two answers
-- of one iteration.
structure Ledger (totalMB : Int) (received : List (MemReq α)) (s : Served α) : Prop where
  total : s.pool.totalMB = totalMB
  balance : s.pool.availableMB = totalMB + (s.answers.map (·.req.mb)).sum
  nonneg : 0 ≤ s.pool.availableMB
  values : ∀ before answer after, s.answers = before ++ answer :: after →
    answer.availableMB = totalMB + (before.map (·.req.mb)).sum + answer.req.mb ∧ 0 ≤ answer.availableMB
  once : (s.answers.map (·.req) ++ s.pool.memRequestsWaiting).Perm received
  order : (s.answers.map (·.req)).filter (·.mb < 0) ++ s.pool.memRequestsWaiting = received.filter (·.mb < 0)

theorem initial_ledger (nonneg : 0 ≤ totalMB) : Ledger totalMB [] (⟨newMemPool totalMB,[]⟩ : Served α) := by
  refine ⟨rfl,by simp [newMemPool],nonneg,?_,by simp [newMemPool],by simp [newMemPool]⟩
  intro before answer after split
  simp at split

theorem Ledger.waiting_negative (valid : Ledger totalMB received s) :
    ∀ req ∈ s.pool.memRequestsWaiting, req.mb < 0 := by
  intro req present
  have member : req ∈ received.filter (·.mb < 0) := by
    rw [← valid.order]
    exact List.mem_append_right _ present
  simpa using (List.mem_filter.mp member).2

theorem values_snoc {answers : List (Answer α)}
    (prior : ∀ before answer after, answers = before ++ answer :: after →
      answer.availableMB = totalMB + (before.map (·.req.mb)).sum + answer.req.mb ∧ 0 ≤ answer.availableMB)
    (value : last.availableMB = totalMB + (answers.map (·.req.mb)).sum + last.req.mb)
    (nonneg : 0 ≤ last.availableMB) :
    ∀ before answer after, answers ++ [last] = before ++ answer :: after →
      answer.availableMB = totalMB + (before.map (·.req.mb)).sum + answer.req.mb ∧ 0 ≤ answer.availableMB := by
  intro before answer after split
  rcases snoc_split split with ⟨rfl,rfl⟩ | ⟨front,earlier⟩
  · exact ⟨value,nonneg⟩
  · exact prior before answer front earlier

theorem receive_ledger {s : Served α} (valid : Ledger totalMB received s)
    (ran : receive s.pool req = .ok (next,out)) :
    Ledger totalMB (received ++ [req]) ⟨next,s.answers ++ out⟩ := by
  obtain ⟨_,⟨release,rfl,rfl⟩ | ⟨acquire,rfl,rfl⟩⟩ := receive_parts ran
  · have value : s.pool.availableMB + req.mb = totalMB + (s.answers.map (·.req.mb)).sum + req.mb := by
      rw [valid.balance]
    have nonneg : 0 ≤ s.pool.availableMB + req.mb := by
      have := valid.nonneg
      omega
    have kept : ¬ req.mb < 0 := by omega
    refine ⟨valid.total,?_,nonneg,values_snoc valid.values value nonneg,?_,?_⟩
    · simpa [add_assoc] using value
    · simp only [List.map_append,List.map_cons,List.map_nil,List.append_assoc]
      refine List.Perm.trans ?_ (List.Perm.append_right [req] valid.once)
      rw [List.append_assoc]
      exact List.Perm.append_left _ List.perm_append_comm
    · simpa [kept] using valid.order
  · refine ⟨valid.total,by simpa using valid.balance,valid.nonneg,by simpa using valid.values,?_,?_⟩
    · simpa [List.append_assoc] using List.Perm.append_right [req] valid.once
    · simp only [List.append_nil,List.filter_append,← valid.order,List.append_assoc]
      simp [acquire]

theorem serve_ledger {s : Served α} (valid : Ledger totalMB received s) :
    Ledger totalMB received ⟨(serve s.pool).1,s.answers ++ (serve s.pool).2⟩ := by
  rcases serve_parts s.pool with ⟨front,rest,waiting,fits,ran⟩ | ⟨_,ran⟩
  · rw [ran]
    have negative : front.mb < 0 := valid.waiting_negative front (by simp [waiting])
    have value : s.pool.availableMB + front.mb = totalMB + (s.answers.map (·.req.mb)).sum + front.mb := by
      rw [valid.balance]
    refine ⟨valid.total,?_,fits,values_snoc valid.values value fits,?_,?_⟩
    · simpa [add_assoc] using value
    · simpa [waiting] using valid.once
    · have order := valid.order
      rw [waiting] at order
      simpa [negative] using order
  · rw [ran]
    refine ⟨valid.total,by simpa using valid.balance,valid.nonneg,by simpa using valid.values,?_,?_⟩
    · simpa using valid.once
    · simpa using valid.order

theorem iterate_ledger {s : Served α} (valid : Ledger totalMB received s) (ran : iterate s req = .ok next) :
    Ledger totalMB (received ++ [req]) next := by
  obtain ⟨middle,first,received,rfl⟩ := iterate_parts ran
  simpa only [List.append_assoc] using serve_ledger (receive_ledger valid received)

theorem iterates_ledger {s : Served α} (valid : Ledger totalMB received s)
    (fits : ∀ req ∈ requests, -req.mb ≤ totalMB) :
    ∃ next, iterates s requests = .ok next ∧ Ledger totalMB (received ++ requests) next := by
  induction requests generalizing s received with
  | nil => exact ⟨s,rfl,by simpa using valid⟩
  | cons req rest ih =>
      have room : 0 ≤ s.pool.totalMB + req.mb := by
        have small := fits req (by simp)
        rw [valid.total]
        omega
      obtain ⟨middle,moved⟩ := iterate_ok s room
      obtain ⟨next,ran,account⟩ := ih (iterate_ledger valid moved) (fun other member => fits other (by simp [member]))
      exact ⟨next,by simpa [iterates,moved] using ran,by simpa using account⟩

theorem memTask_never_overgrants (totalMB : Int) (requests : List (MemReq α)) (nonneg : 0 ≤ totalMB)
    (fits : ∀ req ∈ requests, -req.mb ≤ totalMB) :
    ∃ s, memTask totalMB requests = .ok s ∧ Ledger totalMB requests s := by
  obtain ⟨s,ran,account⟩ := iterates_ledger (initial_ledger nonneg) fits
  exact ⟨s,ran,by simpa using account⟩

def sampleRequests : List (MemReq Nat) := [⟨-250,0⟩,⟨-300,1⟩,⟨0,2⟩,⟨250,3⟩]

theorem memTask_never_overgrants_sample :
    ∃ s, memTask 500 sampleRequests = .ok s ∧ Ledger 500 sampleRequests s :=
  memTask_never_overgrants 500 sampleRequests (by decide) (by decide)

def Drained (s : Served α) : Prop :=
  s.pool.memRequestsWaiting = [] ∨
    ∃ front rest, s.pool.memRequestsWaiting = front :: rest ∧ s.pool.availableMB + front.mb < 0

def FreesTwo (s : Served α) (req : MemReq α) : Prop :=
  0 ≤ req.mb ∧ ∃ first second rest, s.pool.memRequestsWaiting = first :: second :: rest ∧
    0 ≤ s.pool.availableMB + req.mb + first.mb + second.mb

theorem drained_front {s : Served α} (drained : Drained s) (waiting : s.pool.memRequestsWaiting = front :: rest) :
    s.pool.availableMB + front.mb < 0 := by
  rcases drained with empty | ⟨first,others,same,blocked⟩
  · rw [empty] at waiting
    cases waiting
  · rw [same] at waiting
    cases waiting
    exact blocked

theorem drained_of_front {s : Served α} (blocked : ∀ front rest, s.pool.memRequestsWaiting = front :: rest →
    s.pool.availableMB + front.mb < 0) : Drained s := by
  cases waiting : s.pool.memRequestsWaiting with
  | nil => exact .inl waiting
  | cons front rest => exact .inr ⟨front,rest,waiting,blocked front rest waiting⟩

def WaitersNegative (s : Served α) : Prop := ∀ req ∈ s.pool.memRequestsWaiting, req.mb < 0

theorem iterate_waiters {s : Served α} (negative : WaitersNegative s) (ran : iterate s req = .ok next) :
    WaitersNegative next := by
  obtain ⟨middle,first,received,rfl⟩ := iterate_parts ran
  have kept : ∀ other ∈ middle.memRequestsWaiting, other.mb < 0 := by
    obtain ⟨_,⟨_,_,rfl⟩ | ⟨acquire,_,rfl⟩⟩ := receive_parts received
    · exact negative
    · intro other present
      rcases List.mem_append.mp present with old | new
      · exact negative other old
      · rw [List.mem_singleton.mp new]; exact acquire
  rcases serve_parts middle with ⟨front,rest,waiting,_,served⟩ | ⟨_,served⟩
  · intro other present
    rw [served] at present
    exact kept other (by rw [waiting]; exact List.mem_cons_of_mem _ present)
  · intro other present
    rw [served] at present
    exact kept other present

-- Exactly one waiter is looked at per message, so the next one may be left
-- behind precisely when the message is a release that fits two of them.
theorem iterate_drained_iff {s : Served α} (negative : WaitersNegative s) (drained : Drained s)
    (ran : iterate s req = .ok next) : Drained next ↔ ¬ FreesTwo s req := by
  obtain ⟨middle,first,received,rfl⟩ := iterate_parts ran
  obtain ⟨_,⟨release,_,rfl⟩ | ⟨acquire,_,rfl⟩⟩ := receive_parts received
  · rcases serve_parts {s.pool with availableMB := s.pool.availableMB + req.mb,phase := .serving} with
      ⟨front,rest,waiting,fits,served⟩ | ⟨blocked,served⟩
    · rw [served]
      constructor
      · rintro after ⟨_,one,two,others,queue,room⟩
        rw [queue] at waiting
        cases waiting
        have front := drained_front after rfl
        simp only at front
        omega
      · intro single
        apply drained_of_front
        intro second others next
        simp only at next
        have short : ¬ 0 ≤ s.pool.availableMB + req.mb + front.mb + second.mb := by
          intro room
          exact single ⟨release,front,second,others,by simpa [next] using waiting,room⟩
        simp only
        omega
    · rw [served]
      have rest : ¬ FreesTwo s req := by
        rintro ⟨_,one,two,others,queue,room⟩
        have front := blocked one (two :: others) queue
        have second := negative two (by simp [queue])
        simp only at front
        omega
      refine iff_of_true ?_ rest
      exact drained_of_front blocked
  · have rest : ¬ FreesTwo s req := fun frees => by have := frees.1; omega
    refine iff_of_true ?_ rest
    rcases serve_parts {s.pool with memRequestsWaiting := s.pool.memRequestsWaiting ++ [req],phase := .serving} with
      ⟨front,others,waiting,fits,served⟩ | ⟨blocked,served⟩
    · -- a front that fits is the request itself: older waiters did not fit before
      rw [served]
      cases queue : s.pool.memRequestsWaiting with
      | nil =>
          rw [queue] at waiting
          cases waiting
          exact .inl rfl
      | cons oldest tail =>
          rw [queue] at waiting
          cases waiting
          have stuck := drained_front drained queue
          simp only at fits
          omega
    · rw [served]
      exact drained_of_front blocked

theorem iterates_waiters {s : Served α} (negative : WaitersNegative s) (ran : iterates s requests = .ok next) :
    WaitersNegative next := by
  induction requests generalizing s with
  | nil => cases ran; exact negative
  | cons req rest ih =>
      cases moved : iterate s req with
      | error message => simp [iterates,moved] at ran
      | ok middle => exact ih (iterate_waiters negative moved) (by simpa [iterates,moved] using ran)

theorem memTask_waiters {requests : List (MemReq α)} (ran : memTask totalMB requests = .ok s) : WaitersNegative s :=
  iterates_waiters (by simp [WaitersNegative,newMemPool]) ran

theorem memTask_drained_iff (totalMB : Int) (requests : List (MemReq α)) :
    (∀ received s, received <+: requests → memTask totalMB received = .ok s → Drained s) ↔
      ∀ received req s next, received ++ [req] <+: requests → memTask totalMB received = .ok s →
        memTask totalMB (received ++ [req]) = .ok next → ¬ FreesTwo s req := by
  constructor
  · intro always received req s next early before after
    have single : iterate s req = .ok next := by
      obtain ⟨middle,same,moved⟩ := iterates_snoc after
      rw [show iterates _ received = .ok s from before] at same
      cases same
      exact moved
    have drained := always received s ((List.prefix_append _ _).trans early) before
    exact (iterate_drained_iff (memTask_waiters before) drained single).mp (always _ next early after)
  · intro single received
    induction received using List.reverseRecOn with
    | nil =>
        intro s _ ran
        cases ran
        exact .inl rfl
    | append_singleton received req ih =>
        intro next early ran
        obtain ⟨s,before,moved⟩ := iterates_snoc ran
        have drained := ih s ((List.prefix_append _ _).trans early) before
        exact (iterate_drained_iff (memTask_waiters before) drained moved).mpr (single received req s next early before ran)

-- Two installers fill the pool, two user sandboxes wait, one installer leaves:
-- 200 MB stay free, and the second user sandbox stays blocked on 50 of them.
def stalledRequests : List (MemReq Nat) := [⟨-250,0⟩,⟨-250,1⟩,⟨-50,2⟩,⟨-50,3⟩,⟨250,4⟩]

theorem memTask_leaves_waiter :
    ∃ s, memTask 500 stalledRequests = .ok s ∧ s.pool.phase = .receiving ∧ ¬ Drained s := by
  refine ⟨_,rfl,rfl,?_⟩
  intro drained
  have front := drained_front drained rfl
  revert front
  decide

end OpenLambda.MemPool
