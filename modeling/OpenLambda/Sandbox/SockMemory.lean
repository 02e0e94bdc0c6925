import OpenLambda.Sandbox.SockRelease

namespace OpenLambda.SockContainer
open SafeWrapper SandboxEventType

-- The limit of a cgroup that has been acquired and not been credited back.
def Box.limit (b : Box) : Int := if b.memReleased = 0 then b.getMemLimitMB else 0

-- Debited by Create or Unpause with the limit still to be applied, or lowered
-- by Pause and still to be credited.
def Box.pending (b : Box) : Int :=
  match b.op with
  | .acquireCg => b.memLimitMB
  | .memSend mb .pauseCredit | .memWait mb .pauseCredit => mb
  | .raise mb => -mb
  | _ => 0

def Box.charge (b : Box) : Int := b.limit + b.pending

def Box.waits (b : Box) : Option Int :=
  match b.op with
  | .memWait mb _ => some mb
  | _ => none

theorem unreleased {b : Box} (ok : BoxOK conf b) (low : b.floor ≤ b.cgRefCount) (standing : b.destroyed = false) :
    b.memReleased = 0 := by
  by_contra released
  have zero := (releases_parts ok.releases).2.1 (.inr (.inl released))
  simp only [Box.floor,standing,cond_false] at low
  split at low <;> omega

theorem charge_kept {b c : Box} (cg : c.cg = b.cg) (released : c.memReleased = b.memReleased)
    (before : b.pending = 0) (after : c.pending = 0) : c.charge = b.charge := by
  simp only [Box.charge,Box.limit,Box.getMemLimitMB,cg,released,before,after]

theorem goto_charge {b : Box} (step : Goto b op) : ({b with op := op} : Box).charge = b.charge := by
  cases step with
  | createFailed here => rcases here with here | here <;> exact charge_kept rfl rfl (by simp [Box.pending,here]) rfl
  | setupDone here | setupFailed here | freshDone here | destroyed here | pauseKept here | thawFailed here | frozen here
  | gone here => exact charge_kept rfl rfl (by simp [Box.pending,here]) rfl

theorem decCgRefCount_charge {b : Box} (here : b.op = .decRef after) : (b.decCgRefCount after).box.charge = b.charge := by
  unfold Box.decCgRefCount
  dsimp only
  split
  · exact charge_kept rfl rfl (by simp [Box.pending,here]) (by simp [Box.pending,here])
  · split <;> exact charge_kept rfl rfl (by simp [Box.pending,here]) rfl

theorem localStep_charge {b : Box} (ok : BoxOK conf b) (low : b.floor ≤ b.cgRefCount) (step : LocalStep conf b out) :
    out.box.charge = b.charge := by
  have lives := ok.lives
  have amounts := ok.amounts
  cases step with
  | goto move => exact goto_charge move
  | ignored here | destroyIgnored here | freezePanic here => rfl
  | getCg here =>
      simp only [Lives,Amounts,here] at lives amounts
      simp [Box.charge,Box.limit,Box.pending,Box.getMemLimitMB,here,amounts,unreleased ok low lives.1.2]
  | setParent here | connected here | paused here | thawed here | finish here =>
      exact charge_kept rfl rfl (by simp [Box.pending,here]) rfl
  | downsized here alive =>
      simp only [Lives,here] at lives
      simp [Box.charge,Box.limit,Box.pending,Box.getMemLimitMB,here,unreleased ok low (alive_of_idle lives alive)]
  | unpause here alive heard paused next =>
      rcases next with rfl | rfl <;> exact charge_kept rfl rfl (by simp [Box.pending,here]) rfl
  | raise here =>
      simp only [Lives,Amounts,here] at lives amounts
      simp [Box.charge,Box.limit,Box.pending,Box.getMemLimitMB,here,amounts,unreleased ok low lives.1.2.2]
  | decRef here => exact decCgRefCount_charge here
  | kill here =>
      unfold Box.killAndRelease
      split <;> exact charge_kept rfl rfl (by simp [Box.pending,here]) rfl
  | removeRoot here =>
      refine charge_kept rfl rfl (by simp [Box.pending,here]) ?_
      by_cases orphan : b.parent = none <;> simp [Box.removeRoot,Box.pending,orphan]

theorem resume_charge {b : Box} (ok : BoxOK conf b) (asked : b.waits = some mb) : b.resume.charge = b.charge - mb := by
  have releases := ok.releases
  have amounts := ok.amounts
  unfold Box.waits at asked
  split at asked
  · rename_i use here
    cases asked
    cases use with
    | create =>
        simp only [Amounts,here] at amounts
        simp [Box.resume,Box.charge,Box.limit,Box.pending,Box.getMemLimitMB,here,amounts]
    | pauseCredit => simp [Box.resume,Box.charge,Box.limit,Box.pending,Box.getMemLimitMB,here]
    | unpauseDebit => simp [Box.resume,Box.charge,Box.limit,Box.pending,Box.getMemLimitMB,here]; omega
    | releaseCredit after =>
        simp only [Releases,Amounts,here] at releases amounts
        simp [Box.resume,Box.charge,Box.limit,Box.pending,Box.getMemLimitMB,here,amounts,releases.2.2.1]
  · cases asked

theorem localStep_waits {b : Box} (step : LocalStep conf b out) : b.waits = none := by
  cases step with
  | goto move =>
      cases move with
      | createFailed here => rcases here with here | here <;> simp [Box.waits,here]
      | setupDone here | setupFailed here | freshDone here | destroyed here | pauseKept here | thawFailed here | frozen here
      | gone here => simp [Box.waits,here]
  | ignored here | destroyIgnored here | freezePanic here | getCg here | setParent here | connected here | paused here
  | thawed here | finish here | downsized here | unpause here | raise here | decRef here | kill here | removeRoot here =>
      simp [Box.waits,here]

theorem released_charge {b : Box} (ok : BoxOK conf b) (low : b.floor ≤ b.cgRefCount) (released : b.memReleased ≠ 0) :
    b.charge = 0 ∧ b.waits = none := by
  have gone : b.destroyed = true := by
    by_contra standing
    exact released (unreleased ok low (by simpa using standing))
  obtain ⟨releases,lives,_⟩ := ok
  have limit : b.limit = 0 := if_neg released
  refine ⟨?_,?_⟩
  · rw [Box.charge,limit,zero_add]
    unfold Box.pending
    split
    · rename_i here
      simp [Lives,here,Box.young,gone] at lives
    · rename_i here
      simp [Lives,here,Box.busy,gone] at lives
    · rename_i here
      simp [Lives,here,Box.busy,gone] at lives
    · rename_i here
      simp [Lives,here,Box.busy,gone] at lives
    · rfl
  · unfold Box.waits
    split
    · rename_i mb use here
      cases use with
      | create => simp [Lives,here,Box.young,gone] at lives
      | pauseCredit => simp [Lives,here,Box.busy,gone] at lives
      | unpauseDebit => simp [Lives,here,Box.busy,gone] at lives
      | releaseCredit after =>
          simp only [Releases,here] at releases
          exact absurd releases.2.2.1 released
    · rfl

-- How large a limit can be. The bounds need that only sandboxes with the default
-- limit were paused, since Unpause raises the limit to the default.
structure Sized (conf : Conf) (b : Box) : Prop where
  paused : b.safe.paused = true → evPause ∈ b.hist
  credit : ∀ mb, b.op = .memSend mb .pauseCredit ∨ b.op = .memWait mb .pauseCredit → 0 ≤ mb
  bounds : 0 ≤ b.memLimitMB → 0 ≤ conf.memMB → (evPause ∈ b.hist → b.memLimitMB = conf.memMB) →
    0 ≤ b.getMemLimitMB ∧ b.getMemLimitMB ≤ b.memLimitMB

theorem newBox_sized (conf : Conf) (createParent : Option Nat) (memLimitMB : Int) :
    Sized conf (newBox conf createParent memLimitMB) := by
  refine ⟨by simp [newBox,newSafeSandbox],by simp [newBox],fun positive _ _ => ?_⟩
  exact ⟨le_refl 0,positive⟩

theorem sized_kept {b c : Box} (sized : Sized conf b) (limit : c.memLimitMB = b.memLimitMB) (cg : c.cg = b.cg)
    (hist : b.hist <+: c.hist) (paused : c.safe.paused = true → b.safe.paused = true)
    (op : ∀ mb, c.op ≠ .memSend mb .pauseCredit ∧ c.op ≠ .memWait mb .pauseCredit) : Sized conf c := by
  refine ⟨?_,?_,?_⟩
  · exact fun now => hist.subset (sized.paused (paused now))
  · rintro mb (here | here)
    · exact absurd here (op mb).1
    · exact absurd here (op mb).2
  · intro positive default settled
    simp only [Box.getMemLimitMB,limit,cg] at positive settled ⊢
    exact sized.bounds positive default fun seen => settled (hist.subset seen)

theorem localStep_sized {b : Box} (ok : BoxOK conf b) (sized : Sized conf b) (step : LocalStep conf b out)
    (mark : Option Nat) : Sized conf {out.box with task := mark,hist := out.box.hist ++ out.events} := by
  have lives := ok.lives
  cases step with
  | goto move =>
      refine sized_kept sized rfl rfl (by simp) id ?_
      cases move <;> simp
  | ignored here | destroyIgnored here | freezePanic here => exact sized_kept sized rfl rfl (by simp) id (by simp [here])
  | setParent here | connected here | finish here =>
      exact sized_kept sized rfl rfl (by simp [Box.unlock]) (by simp [Box.unlock,startNotifyingListeners,died]) (by simp [Box.unlock])
  | thawed here => exact sized_kept sized rfl rfl (by simp [Box.unlock]) (by simp [Box.unlock,unpauseDone]) (by simp [Box.unlock])
  | unpause here alive heard paused next =>
      refine sized_kept sized rfl rfl (by simp) id ?_
      rcases next with rfl | rfl <;> simp
  | decRef here =>
      unfold Box.decCgRefCount
      dsimp only
      split
      · exact sized_kept sized rfl rfl (by simp) id (by simp [here])
      · split <;> exact sized_kept sized rfl rfl (by simp) id (by simp)
  | kill here =>
      unfold Box.killAndRelease
      split <;> exact sized_kept sized rfl rfl (by simp) id (by simp)
  | removeRoot here =>
      refine sized_kept sized rfl rfl (by simp [Box.removeRoot]) id ?_
      unfold Box.removeRoot
      split <;> simp
  | paused here =>
      simp only [Lives,here] at lives
      refine ⟨?_,by simp [Box.unlock],?_⟩
      · simp [pauseDone,event,lives.1.2.1]
      · intro positive default settled
        refine sized.bounds positive default fun seen => settled ?_
        simp [Box.unlock,seen]
  | getCg here =>
      refine ⟨by simpa using sized.paused,by simp,?_⟩
      intro positive default settled
      exact ⟨positive,le_refl _⟩
  | @downsized newLimit here alive heard running smaller positive =>
      refine ⟨by simp [running],?_,?_⟩
      · intro mb asked
        simp at asked
        omega
      · intro limit default settled
        have bounds := sized.bounds limit default fun seen => settled (by simp [seen])
        exact ⟨by simp [Box.getMemLimitMB]; omega,by simp only [Box.getMemLimitMB,Option.getD_some] at smaller bounds ⊢; omega⟩
  | raise here =>
      simp only [Lives,here] at lives
      have seen := sized.paused lives.2
      refine ⟨fun _ => by simp [seen],by simp,?_⟩
      intro limit default settled
      have same := settled (by simp [seen])
      simp only [Box.getMemLimitMB,Option.getD_some] at same ⊢
      omega

theorem resume_sized {b : Box} (sized : Sized conf b) : Sized conf b.resume := by
  unfold Box.resume
  split
  all_goals first | exact sized | exact sized_kept sized rfl rfl (by simp) id (by simp)

theorem memSend_sized {b : Box} (sized : Sized conf b) (here : b.op = .memSend mb use) :
    Sized conf {b with op := .memWait mb use} := by
  refine ⟨sized.paused,?_,sized.bounds⟩
  rintro amount (same | same)
  · cases same
  · cases same
    exact sized.credit _ (.inl here)

theorem sized_nonneg {b : Box} (ok : BoxOK conf b) (sized : Sized conf b) (limit : 0 ≤ b.memLimitMB)
    (default : 0 ≤ conf.memMB) (settled : evPause ∈ b.hist → b.memLimitMB = conf.memMB) : 0 ≤ b.pending := by
  unfold Box.pending
  split
  · exact limit
  · exact sized.credit _ (.inl ‹_›)
  · exact sized.credit _ (.inr ‹_›)
  · rename_i mb here
    obtain ⟨_,lives,amounts⟩ := ok
    simp only [Lives,Amounts,here] at lives amounts
    have bounds := (sized.bounds limit default settled).2
    have same := settled (sized.paused lives.2)
    simp only [Box.getMemLimitMB,amounts,Option.getD_some] at bounds
    omega
  · exact le_refl 0

end OpenLambda.SockContainer

namespace OpenLambda.SockSystem
open Foundation.Runs Foundation.Tally SafeWrapper SandboxEventType SockContainer

def System.asked (s : System) : List (MemPool.MemReq Client) := s.memRequests ++ s.pool.memRequestsWaiting

structure Memory (conf : Conf) (s : System) : Prop where
  total : s.pool.totalMB = conf.totalMB
  nonneg : 0 ≤ s.pool.availableMB
  balance : s.pool.availableMB + (tally s.nextId fun i => (s.box i).charge) = conf.totalMB
  debits : ∀ req, req ∈ s.pool.memRequestsWaiting → req.mb < 0
  once : (s.asked.map (·.resp)).Nodup
  waits : ∀ req id, req ∈ s.asked → req.resp = .container id → id < s.nextId ∧ (s.box id).waits = some req.mb
  probes : ∀ req, req ∈ s.asked → req.resp = .evictor → req.mb = 0 ∧ s.evictorPc = .probing

theorem init_memory (nonneg : 0 ≤ conf.totalMB) : Memory conf (init conf) := by
  refine ⟨rfl,nonneg,?_,?_,?_,?_,?_⟩ <;> simp [init,MemPool.newMemPool,System.asked,tally_zero]

theorem kept_memory {s t : System} (memory : Memory conf s) (next : t.nextId = s.nextId) (pool : t.pool = s.pool)
    (requests : t.memRequests = s.memRequests) (pc : s.evictorPc = .probing → t.evictorPc = .probing)
    (charge : ∀ i, i < s.nextId → (t.box i).charge = (s.box i).charge)
    (waits : ∀ i mb, i < s.nextId → (s.box i).waits = some mb → (t.box i).waits = some mb) : Memory conf t := by
  have asked : t.asked = s.asked := by rw [System.asked,System.asked,pool,requests]
  refine ⟨pool ▸ memory.total,pool ▸ memory.nonneg,?_,pool ▸ memory.debits,asked ▸ memory.once,?_,?_⟩
  · rw [pool,next,tally_congr charge]
    exact memory.balance
  · intro req id present resp
    rw [asked] at present
    obtain ⟨within,same⟩ := memory.waits req id present resp
    exact ⟨next ▸ within,waits id req.mb within same⟩
  · intro req present resp
    rw [asked] at present
    obtain ⟨zero,probing⟩ := memory.probes req present resp
    exact ⟨zero,pc probing⟩

theorem update_charge {box : Nat → Box} {id : Nat} {b : Box} (same : b.charge = (box id).charge) (i : Nat) :
    (Function.update box id b i).charge = (box i).charge := by
  by_cases equal : i = id
  · rw [equal,Function.update_self,same]
  · rw [Function.update_of_ne equal]

theorem update_waits {box : Nat → Box} {id : Nat} {b : Box} (free : (box id).waits = none) (i : Nat) (mb : Int)
    (asked : (box i).waits = some mb) : (Function.update box id b i).waits = some mb := by
  by_cases equal : i = id
  · rw [equal,free] at asked; cases asked
  · rw [Function.update_of_ne equal,asked]

theorem put_memory {s t : System} {id : Nat} {b : Box} (memory : Memory conf s) (next : t.nextId = s.nextId)
    (pool : t.pool = s.pool) (requests : t.memRequests = s.memRequests) (pc : t.evictorPc = s.evictorPc)
    (box : t.box = Function.update s.box id b) (same : b.charge = (s.box id).charge) (free : (s.box id).waits = none) :
    Memory conf t :=
  kept_memory memory next pool requests (fun probing => pc ▸ probing)
    (fun i _ => by rw [box]; exact update_charge same i)
    (fun i mb _ asked => by rw [box]; exact update_waits free i mb asked)

theorem pair_memory {s t : System} {id p : Nat} {child parent : Box} (memory : Memory conf s) (different : id ≠ p)
    (next : t.nextId = s.nextId) (pool : t.pool = s.pool) (requests : t.memRequests = s.memRequests)
    (pc : t.evictorPc = s.evictorPc) (box : t.box = Function.update (Function.update s.box p parent) id child)
    (parentSame : parent.charge = (s.box p).charge) (parentFree : (s.box p).waits = none)
    (childSame : child.charge = (s.box id).charge) (childFree : (s.box id).waits = none) : Memory conf t := by
  have middle : Memory conf (s.put p parent) := put_memory memory rfl rfl rfl rfl rfl parentSame parentFree
  have other : (s.put p parent).box id = s.box id := Function.update_of_ne different ..
  exact put_memory middle next pool requests pc box (other ▸ childSame) (other ▸ childFree)

theorem create_memory {s t : System} (memory : Memory conf s) (next : t.nextId = s.nextId + 1) (pool : t.pool = s.pool)
    (requests : t.memRequests = s.memRequests) (pc : t.evictorPc = s.evictorPc)
    (box : t.box = Function.update s.box s.nextId (newBox conf parent memLimitMB)) : Memory conf t := by
  have asked : t.asked = s.asked := by rw [System.asked,System.asked,pool,requests]
  have old : ∀ i, i < s.nextId → t.box i = s.box i := by
    intro i within
    rw [box,Function.update_of_ne (by omega)]
  refine ⟨pool ▸ memory.total,pool ▸ memory.nonneg,?_,pool ▸ memory.debits,asked ▸ memory.once,?_,?_⟩
  · have none : (newBox conf parent memLimitMB).charge = 0 := by
      simp [Box.charge,Box.limit,Box.pending,Box.getMemLimitMB,newBox]
    rw [pool,next,tally_succ,tally_congr (fun i within => by rw [old i within]),box,Function.update_self,none,add_zero]
    exact memory.balance
  · intro req id present resp
    rw [asked] at present
    obtain ⟨within,same⟩ := memory.waits req id present resp
    rw [old id within]
    exact ⟨by omega,same⟩
  · intro req present resp
    rw [asked] at present
    rw [pc]
    exact memory.probes req present resp

theorem send_memory {s t : System} (memory : Memory conf s) (next : t.nextId = s.nextId) (pool : t.pool = s.pool)
    (requests : t.memRequests = s.memRequests ++ [req]) (pc : s.evictorPc = .probing → t.evictorPc = .probing)
    (charge : ∀ i, i < s.nextId → (t.box i).charge = (s.box i).charge)
    (waits : ∀ i mb, i < s.nextId → (s.box i).waits = some mb → (t.box i).waits = some mb)
    (fresh : ∀ other, other ∈ s.asked → other.resp ≠ req.resp)
    (container : ∀ id, req.resp = .container id → id < s.nextId ∧ (t.box id).waits = some req.mb)
    (probe : req.resp = .evictor → req.mb = 0 ∧ t.evictorPc = .probing) : Memory conf t := by
  have asked : t.asked.Perm (req :: s.asked) := by
    rw [System.asked,System.asked,pool,requests,List.append_assoc]
    exact List.perm_middle
  refine ⟨pool ▸ memory.total,pool ▸ memory.nonneg,?_,pool ▸ memory.debits,?_,?_,?_⟩
  · rw [pool,next,tally_congr charge]
    exact memory.balance
  · rw [(asked.map _).nodup_iff,List.map_cons,List.nodup_cons]
    refine ⟨?_,memory.once⟩
    intro present
    obtain ⟨other,member,same⟩ := List.mem_map.mp present
    exact fresh other member same
  · intro other id present resp
    rw [next]
    rcases List.mem_cons.mp (asked.mem_iff.mp present) with rfl | old
    · exact container id resp
    · obtain ⟨within,same⟩ := memory.waits other id old resp
      exact ⟨within,waits id _ within same⟩
  · intro other present resp
    rcases List.mem_cons.mp (asked.mem_iff.mp present) with rfl | old
    · exact probe resp
    · obtain ⟨zero,probing⟩ := memory.probes other old resp
      exact ⟨zero,pc probing⟩

theorem queue_memory {s t : System} (memory : Memory conf s) (front : s.memRequests = req :: rest) (debit : req.mb < 0)
    (moved : t = {s with
      memRequests := rest
      pool := {s.pool with memRequestsWaiting := s.pool.memRequestsWaiting ++ [req],phase := .serving}}) :
    Memory conf t := by
  have asked : t.asked.Perm s.asked := by
    rw [moved,System.asked,System.asked,front,← List.append_assoc]
    exact List.perm_append_comm
  subst moved
  refine ⟨memory.total,memory.nonneg,memory.balance,?_,?_,?_,?_⟩
  · intro other present
    rcases List.mem_append.mp present with old | new
    · exact memory.debits other old
    · rw [List.mem_singleton.mp new]
      exact debit
  · exact (asked.map _).nodup_iff.mpr memory.once
  · exact fun other id present => memory.waits other id (asked.mem_iff.mp present)
  · exact fun other present => memory.probes other (asked.mem_iff.mp present)

theorem answer_memory {s t : System} (family : Family conf s) (memory : Memory conf s)
    (asked : s.asked.Perm (req :: t.asked)) (fits : 0 ≤ s.pool.availableMB + req.mb)
    (debits : ∀ other, other ∈ t.pool.memRequestsWaiting → other ∈ s.pool.memRequestsWaiting)
    (total : t.pool.totalMB = s.pool.totalMB) (available : t.pool.availableMB = s.pool.availableMB + req.mb)
    (next : t.nextId = s.nextId) (box : t.box = s.box) (pc : t.evictorPc = s.evictorPc) :
    Memory conf (t.answer ⟨req,t.pool.availableMB⟩) := by
  have once : (req.resp :: t.asked.map (·.resp)).Nodup := (asked.map MemPool.MemReq.resp).nodup_iff.mp memory.once
  have present : req ∈ s.asked := asked.mem_iff.mpr (by simp)
  have older : ∀ other, other ∈ t.asked → other ∈ s.asked ∧ other.resp ≠ req.resp := by
    intro other member
    refine ⟨asked.mem_iff.mpr (by simp [member]),fun same => ?_⟩
    exact (List.nodup_cons.mp once).1 (same ▸ List.mem_map_of_mem member)
  have nonneg : 0 ≤ t.pool.availableMB := by omega
  have waiting := fun other member => memory.debits other (debits other member)
  cases resp : req.resp with
  | container id =>
      obtain ⟨within,waits⟩ := memory.waits req id present resp
      have moved : t.answer ⟨req,t.pool.availableMB⟩ = t.put id (t.box id).resume := by
        simp only [System.answer,resp]
      rw [moved]
      refine ⟨total.trans memory.total,nonneg,?_,waiting,(List.nodup_cons.mp once).2,?_,?_⟩
      · have charge := resume_charge (family.ok id within) waits
        have balance := memory.balance
        simp only [System.put,available,next,box]
        rw [tally_update within s.box (s.box id).resume fun _ b => b.charge]
        omega
      · intro other j member same
        obtain ⟨old,different⟩ := older other member
        obtain ⟨inside,still⟩ := memory.waits other j old same
        have elsewhere : j ≠ id := by
          rintro rfl
          exact different (same.trans resp.symm)
        refine ⟨by rw [← next] at inside; exact inside,?_⟩
        simp only [System.put,box]
        rw [Function.update_of_ne elsewhere]
        exact still
      · intro other member same
        obtain ⟨zero,probing⟩ := memory.probes other (older other member).1 same
        exact ⟨zero,pc.trans probing⟩
  | evictor =>
      obtain ⟨zero,probing⟩ := memory.probes req present resp
      have moved : t.answer ⟨req,t.pool.availableMB⟩ = {t with evictorPc := .deciding t.pool.availableMB} := by
        simp only [System.answer,resp]
      rw [moved]
      refine ⟨total.trans memory.total,nonneg,?_,waiting,(List.nodup_cons.mp once).2,?_,?_⟩
      · have balance := memory.balance
        simp only [available,next,box]
        omega
      · intro other j member same
        obtain ⟨inside,still⟩ := memory.waits other j (older other member).1 same
        exact ⟨next ▸ inside,by simpa only [box] using still⟩
      · intro other member same
        exact absurd (same.trans resp.symm) (older other member).2

theorem moves_memory {s t : System} (family : Family conf s) (memory : Memory conf s) (move : Moves conf s action t) :
    Memory conf t := by
  cases move with
  | create known => exact create_memory memory rfl rfl rfl rfl rfl
  | act within moved _ =>
      exact put_memory memory rfl rfl rfl rfl rfl (localStep_charge (family.ok _ within) (family.low within) moved)
        (localStep_waits moved)
  | @memSend mb use id within here =>
      have free : (s.box id).waits = none := by simp [Box.waits,here]
      refine send_memory memory rfl rfl rfl (fun probing => probing) (fun i _ => update_charge ?_ i)
        (fun i mb _ asked => update_waits free i mb asked) ?_ ?_ ?_
      · cases use <;> simp [Box.charge,Box.limit,Box.pending,Box.getMemLimitMB,here]
      · intro other present same
        have waits := (memory.waits other id present same).2
        rw [free] at waits
        cases waits
      · intro other same
        cases same
        exact ⟨within,by simp [System.put,Box.waits]⟩
      · intro same
        cases same
  | memReleased front release =>
      refine answer_memory family memory ?_ (by have := memory.nonneg; omega) (fun _ => id) rfl rfl rfl rfl rfl
      rw [System.asked,front]
      exact List.Perm.refl _
  | memQueued front debit => exact queue_memory memory front debit rfl
  | memGranted front fits =>
      refine answer_memory family memory ?_ fits ?_ rfl rfl rfl rfl rfl
      · rw [System.asked,front]
        exact List.perm_middle
      · intro other later
        rw [front]
        exact List.mem_cons_of_mem _ later
  | memKept => exact ⟨memory.1,memory.2,memory.3,memory.4,memory.5,memory.6,memory.7⟩
  | forkRefused within here =>
      exact put_memory memory rfl rfl rfl rfl rfl (charge_kept rfl rfl (by simp [Box.pending,here]) rfl)
        (by simp [Box.waits,here])
  | forkEntered within here made idle ran =>
      obtain ⟨_,rfl⟩ := forkEnter_parts ran
      have order := (family.older _ _ within made).1
      exact pair_memory memory (by omega) rfl rfl rfl rfl rfl
        (charge_kept rfl rfl (by simp [Box.pending,idle]) rfl) (by simp [Box.waits,idle])
        (charge_kept rfl rfl (by simp [Box.pending,here]) rfl) (by simp [Box.waits,here])
  | forkFailed _ within here made busy | forkDone within here made busy =>
      have order := (family.older _ _ within made).1
      exact pair_memory memory (by omega) rfl rfl rfl rfl rfl
        (charge_kept rfl rfl (by simp [Box.pending,busy]) rfl) (by simp [Box.waits,busy])
        (charge_kept rfl rfl (by simp [Box.pending,here]) rfl) (by simp [Box.waits,here])
  | exitCall within here child idle =>
      have order := (family.older _ _ within (family.parent _ _ within child)).1
      exact pair_memory memory (by omega) rfl rfl rfl rfl rfl
        (charge_kept rfl rfl (by simp [Box.pending,idle]) rfl) (by simp [Box.waits,idle])
        (charge_kept rfl rfl (by simp [Box.pending,here]) rfl) (by simp [Box.waits,here])
  | exitReturn within here waits born =>
      have inside := (family.exiting _ _ within (by rw [here]; rfl)).1
      have order := (family.older _ _ inside (family.parent _ _ inside born)).1
      exact pair_memory memory (by omega) rfl rfl rfl rfl rfl
        (charge_kept rfl rfl (by simp [Box.pending,here]) rfl) (by simp [Box.waits,here])
        (charge_kept rfl rfl (by simp [Box.pending,waits]) rfl) (by simp [Box.waits,waits])
  | update idle =>
      exact kept_memory memory rfl rfl rfl (by rcases idle with idle | idle <;> simp [idle]) (fun _ _ => rfl) (fun _ _ _ => id)
  | probe draining =>
      refine send_memory memory rfl rfl rfl (fun _ => rfl) (fun _ _ => rfl) (fun _ _ _ => id) ?_ ?_ (fun _ => ⟨rfl,rfl⟩)
      · intro other present same
        have probing := (memory.probes other present same).2
        rw [draining] at probing
        cases probing
      · intro j same
        cases same
  | decide deciding ran =>
      obtain ⟨tasks,last,next,started⟩ := start_parts _ _
      rw [started]
      exact kept_memory memory rfl rfl rfl (by simp [deciding]) (fun _ _ => rfl) (fun _ _ _ => id)
  | memPanic | updatePanic | decidePanic => exact ⟨memory.1,memory.2,memory.3,memory.4,memory.5,memory.6,memory.7⟩

theorem update_sized {box : Nat → Box} {id : Nat} {b : Box} (sized : ∀ i, Sized conf (box i)) (new : Sized conf b)
    (i : Nat) : Sized conf (Function.update box id b i) := by
  by_cases equal : i = id
  · rw [equal,Function.update_self]; exact new
  · rw [Function.update_of_ne equal]; exact sized i

theorem answer_sized {s : System} (sized : ∀ i, Sized conf (s.box i)) (a : MemPool.Answer Client) (i : Nat) :
    Sized conf ((s.answer a).box i) := by
  obtain ⟨_,box | ⟨id,box⟩⟩ := answer_box s a
  · rw [box]; exact sized i
  · rw [box]; exact update_sized sized (resume_sized (sized id)) i

theorem moves_sized {s t : System} (family : Family conf s) (sized : ∀ i, Sized conf (s.box i))
    (move : Moves conf s action t) : ∀ i, Sized conf (t.box i) := by
  cases move with
  | create known => exact update_sized sized (newBox_sized ..)
  | act within moved _ => exact update_sized sized (localStep_sized (family.ok _ within) (sized _) moved _)
  | memSend within here => exact update_sized sized (memSend_sized (sized _) here)
  | memReleased | memGranted => refine answer_sized ?_ _; exact sized
  | forkRefused => exact update_sized sized (sized_kept (sized _) rfl rfl (by simp [Box.failCreate]) id (by simp [Box.failCreate]))
  | forkEntered within here made idle ran =>
      obtain ⟨_,rfl⟩ := forkEnter_parts ran
      exact update_sized (update_sized sized (sized_kept (sized _) rfl rfl (by simp) id (by simp)))
        (sized_kept (sized _) rfl rfl (by simp) id (by simp))
  | forkFailed | forkDone | exitCall | exitReturn =>
      refine update_sized (update_sized sized (sized_kept (sized _) rfl rfl ?_ id ?_)) (sized_kept (sized _) rfl rfl ?_ id ?_)
      all_goals simp [Box.failCreate,Box.forkLeave,Box.childExit,Box.unlock]
  | decide _ ran =>
      obtain ⟨tasks,last,next,started⟩ := start_parts _ _
      rw [started]
      exact sized
  | _ => exact sized

theorem reached_memory (nonneg : 0 ≤ conf.totalMB) (ran : run (step conf) (init conf) actions = some s) :
    Family conf s ∧ Memory conf s ∧ ∀ i, Sized conf (s.box i) :=
  reached_invariant (fun s => Family conf s ∧ Memory conf s ∧ ∀ i, Sized conf (s.box i))
    (fun _ _ _ valid move => ⟨moves_family valid.1 move,moves_memory valid.1 valid.2.1 move,moves_sized valid.1 valid.2.2 move⟩)
    ⟨init_family conf,init_memory nonneg,fun _ => newBox_sized ..⟩ ran

theorem nobody_waits {s : System} (memory : Memory conf s) (free : ∀ i, i < s.nextId → (s.box i).waits = none) :
    s.pool.memRequestsWaiting = [] := by
  rw [List.eq_nil_iff_forall_not_mem]
  intro req waiting
  have debit := memory.debits req waiting
  have present : req ∈ s.asked := List.mem_append_right _ waiting
  cases resp : req.resp with
  | container id =>
      obtain ⟨within,waits⟩ := memory.waits req id present resp
      rw [free id within] at waits
      cases waits
  | evictor =>
      have zero := (memory.probes req present resp).1
      omega

theorem sock_memory_conserved (nonneg : 0 ≤ conf.totalMB) (ran : run (step conf) (init conf) actions = some s) :
    0 ≤ s.pool.availableMB ∧
    s.pool.availableMB + (tally s.nextId fun i => (s.box i).limit) + (tally s.nextId fun i => (s.box i).pending) =
      conf.totalMB ∧
    (0 ≤ conf.memMB →
      (∀ i, i < s.nextId → 0 ≤ (s.box i).memLimitMB ∧ (evPause ∈ (s.box i).hist → (s.box i).memLimitMB = conf.memMB)) →
      (tally s.nextId fun i => (s.box i).limit) ≤ conf.totalMB) ∧
    ((∀ i, i < s.nextId → (s.box i).memReleased = 1) →
      s.pool.availableMB = conf.totalMB ∧
      ∀ client, ∃ pool out, MemPool.receive s.pool ⟨-conf.totalMB,client⟩ = .ok (pool,out) ∧
        ⟨⟨-conf.totalMB,client⟩,0⟩ ∈ out ++ (MemPool.serve pool).2) := by
  obtain ⟨family,memory,sized⟩ := reached_memory nonneg ran
  have balance : s.pool.availableMB + (tally s.nextId fun i => (s.box i).limit) +
      (tally s.nextId fun i => (s.box i).pending) = conf.totalMB := by
    rw [add_assoc,← tally_add]
    exact memory.balance
  refine ⟨memory.nonneg,balance,?_,?_⟩
  · intro default settled
    have held : 0 ≤ tally s.nextId fun i => (s.box i).pending := tally_nonneg fun i within =>
      sized_nonneg (family.ok i within) (sized i) (settled i within).1 default (settled i within).2
    have available := memory.nonneg
    omega
  · intro released
    have idle : ∀ i, i < s.nextId → (s.box i).charge = 0 ∧ (s.box i).waits = none := fun i within =>
      released_charge (family.ok i within) (family.low within) (by rw [released i within]; decide)
    have full : s.pool.availableMB = conf.totalMB := by
      have balance := memory.balance
      rw [tally_congr (fun i within => (idle i within).1),tally_none,add_zero] at balance
      exact balance
    refine ⟨full,fun client => ?_⟩
    have grab := MemPool.full_grab s.pool client (memory.total.symm ▸ nonneg) (full.trans memory.total.symm)
      (nobody_waits memory fun i within => (idle i within).2)
    rwa [memory.total] at grab

theorem sock_memory_conserved_zygote : ∃ s, run (step smallConf) (init smallConf) zygoteOutlived = some s ∧
    s.nextId = 2 ∧ s.pool.availableMB = 500 := by
  have seen : (run (step smallConf) (init smallConf) zygoteOutlived).map
      (fun s => (s.nextId,(s.box 0).memReleased,(s.box 1).memReleased)) = some (2,1,1) := by decide +kernel
  obtain ⟨s,ran,facts⟩ := Option.map_eq_some_iff.mp seen
  simp only [Prod.mk.injEq] at facts
  obtain ⟨two,first,second⟩ := facts
  refine ⟨s,ran,two,((sock_memory_conserved (by decide) ran).2.2.2 ?_).1⟩
  intro i within
  have cases_of : i = 0 ∨ i = 1 := by omega
  rcases cases_of with rfl | rfl
  · exact first
  · exact second

end OpenLambda.SockSystem
