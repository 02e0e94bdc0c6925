import OpenLambda.Event.CachedKafkaClient
import Mathlib.Logic.Relation

namespace OpenLambda.Kafka
open Foundation.Runs Relation

structure PartitionLog where
  topic : String
  partition : Int
  records : List KafkaRecord
  own : ∀ record ∈ records, record.topic = topic ∧ record.partition = partition
  rising : records.Pairwise (·.offset < ·.offset)

def PartitionLog.from (log : PartitionLog) (pos : Int) : List KafkaRecord :=
  log.records.filter fun record => decide (pos ≤ record.offset)

def behind (pos : Int) (records : List KafkaRecord) : Int :=
  match records.getLast? with
  | some record => record.offset + 1
  | none => pos

def PartitionLog.batch (log : PartitionLog) (pos : Int) (size : Nat) : Fetches :=
  [[⟨log.topic,[⟨log.partition,none,(log.from pos).take size⟩]⟩]]

-- The client of one partition: its state is its position, and a poll returns as
-- many of the next records as it is told.
def logClient (log : PartitionLog) : Client Int Nat where
  poll pos size := some (log.batch pos size,behind pos (log.batch pos size).records)
  seek pos topic partition offset := if topic = log.topic ∧ partition = log.partition then offset else pos

-- What a consumer is for: to give the lambda the next record, and to go where
-- the lambda asks.
structure Reader where
  pos : Int
  given : List KafkaRecord

def Reader.next (log : PartitionLog) (lambda : Lambda) (r : Reader) : Option Reader :=
  (log.from r.pos).head?.map fun record =>
    ⟨(processMessage (lambda (r.given ++ [record]))).getD (record.offset + 1),r.given ++ [record]⟩

def Leads (log : PartitionLog) (lambda : Lambda) : Reader → Reader → Prop :=
  ReflTransGen fun r t => r.next log lambda = some t

theorem leads_given (leads : Leads log lambda r t) : r.given <+: t.given := by
  induction leads with
  | refl => exact List.prefix_refl _
  | tail _ moved ih =>
      obtain ⟨record,_,rfl⟩ := Option.map_eq_some_iff.mp moved
      exact ih.trans (List.prefix_append _ _)

theorem leads_total (one : Leads log lambda r s) (other : Leads log lambda r t) :
    Leads log lambda s t ∨ Leads log lambda t s :=
  ReflTransGen.total_of_right_unique (fun _ _ _ a b => Option.some.inj (a.symm.trans b)) one other

theorem leads_last (last : r.next log lambda = none) (leads : Leads log lambda r t) : t = r := by
  induction leads with
  | refl => rfl
  | tail _ moved ih =>
      subst ih
      rw [last] at moved
      cases moved

theorem filter_behind {records : List KafkaRecord} (rising : records.Pairwise (·.offset < ·.offset))
    (ahead : (records.filter fun other => decide (pos ≤ other.offset)) = record :: rest) :
    (records.filter fun other => decide (record.offset + 1 ≤ other.offset)) = rest := by
  induction records with
  | nil => cases ahead
  | cons head tail ih =>
      obtain ⟨below,tailRising⟩ := List.pairwise_cons.mp rising
      by_cases reached : pos ≤ head.offset
      · rw [List.filter_cons_of_pos (by simpa using reached)] at ahead
        cases ahead
        rw [List.filter_cons_of_neg (by rw [decide_eq_true_iff]; omega)]
        refine List.filter_congr ?_
        intro other member
        have later := below other member
        simp only [decide_eq_decide]
        omega
      · rw [List.filter_cons_of_neg (by simpa using reached)] at ahead
        have found : record ∈ tail.filter fun other => decide (pos ≤ other.offset) := by simp [ahead]
        have before := below record (List.mem_of_mem_filter found)
        rw [List.filter_cons_of_neg (by rw [decide_eq_true_iff]; omega)]
        exact ih tailRising ahead

theorem from_behind (log : PartitionLog) (ahead : log.from pos = record :: rest) : log.from (record.offset + 1) = rest :=
  filter_behind log.rising ahead

theorem filter_at {records : List KafkaRecord} (rising : records.Pairwise (·.offset < ·.offset))
    (member : record ∈ records) :
    ∃ rest, (records.filter fun other => decide (record.offset ≤ other.offset)) = record :: rest := by
  induction records with
  | nil => cases member
  | cons head tail ih =>
      obtain ⟨below,tailRising⟩ := List.pairwise_cons.mp rising
      rcases List.mem_cons.mp member with rfl | later
      · exact ⟨_,List.filter_cons_of_pos (by simp)⟩
      · have before := below record later
        rw [List.filter_cons_of_neg (by rw [decide_eq_true_iff]; omega)]
        exact ih tailRising later

theorem behind_cons (pos : Int) (record : KafkaRecord) (rest : List KafkaRecord) :
    behind pos (record :: rest) = behind (record.offset + 1) rest := by
  cases rest with
  | nil => rfl
  | cons other more => simp [behind,List.getLast?_cons]

theorem process_grows (client : Client σ ι) (lambda : Lambda) (s : Consumer σ) (records : List KafkaRecord) :
    s.processed <+: (s.process client lambda records).processed := by
  induction records generalizing s with
  | nil => exact List.prefix_refl _
  | cons record more ih =>
      have given : s.processed <+: (s.give record).processed := List.prefix_append _ _
      simp only [Consumer.process]
      split
      · exact given
      · exact given.trans (ih (s.give record))

theorem process_delivers (client : Client σ ι) (lambda : Lambda) (s : Consumer σ) (records : List KafkaRecord)
    (some : records ≠ []) : s.processed.length < (s.process client lambda records).processed.length := by
  cases records with
  | nil => exact absurd rfl some
  | cons record more =>
      have given : s.processed.length < (s.give record).processed.length := by simp [Consumer.give]
      simp only [Consumer.process]
      split
      · exact given
      · exact Nat.lt_of_lt_of_le given (process_grows client lambda (s.give record) more).length_le

theorem process_leads (client : Client σ ι) (log : PartitionLog) (lambda : Lambda) (s : Consumer σ)
    (records : List KafkaRecord) (ahead : log.from pos = records ++ rest) :
    (s.process client lambda records).client = s.client ∧
        Leads log lambda ⟨pos,s.processed⟩ ⟨behind pos records,(s.process client lambda records).processed⟩ ∨
      ∃ offset, (s.process client lambda records).client = client.seek s.client log.topic log.partition offset ∧
        Leads log lambda ⟨pos,s.processed⟩ ⟨offset,(s.process client lambda records).processed⟩ := by
  induction records generalizing s pos with
  | nil => exact .inl ⟨rfl,.refl⟩
  | cons record more ih =>
      have member : record ∈ log.records := List.mem_of_mem_filter (show record ∈ log.from pos by simp [ahead])
      obtain ⟨topic,partition⟩ := log.own record member
      have moved : Reader.next log lambda ⟨pos,s.processed⟩ =
          some ⟨(processMessage (lambda (s.processed ++ [record]))).getD (record.offset + 1),s.processed ++ [record]⟩ := by
        simp [Reader.next,ahead]
      simp only [Consumer.process]
      cases seek : processMessage (lambda (s.give record).processed) with
      | some offset =>
          rw [show processMessage (lambda (s.processed ++ [record])) = some offset from seek] at moved
          exact .inr ⟨offset,by rw [← topic,← partition]; rfl,.single moved⟩
      | none =>
          rw [show processMessage (lambda (s.processed ++ [record])) = none from seek] at moved
          rw [behind_cons]
          rcases ih (s.give record) (from_behind log ahead) with ⟨same,leads⟩ | ⟨offset,sought,leads⟩
          · exact .inl ⟨same,.head moved leads⟩
          · exact .inr ⟨offset,sought,.head moved leads⟩

theorem consume_leads (client : Client σ ι) (position : σ → Int) (log : PartitionLog) (lambda : Lambda) {s : Consumer σ}
    (polled : client.poll s.client input = some (fetches,c)) (errors : fetches.errors = [])
    (ahead : log.from pos = fetches.records ++ rest) (rests : position c = behind pos fetches.records)
    (seeks : ∀ offset, position (client.seek c log.topic log.partition offset) = offset) :
    ∃ t, consumeStep client lambda s input = some t ∧
      Leads log lambda ⟨pos,s.processed⟩ ⟨position t.client,t.processed⟩ ∧
      (t.client = c ∨ ∃ offset, t.client = client.seek c log.topic log.partition offset) ∧
      (fetches.records ≠ [] → s.processed.length < t.processed.length) := by
  have turn : consumeStep client lambda s input = some
      ({s with client := c,events := s.events ++ fetches.records.map LoopEvent.polled}.process client lambda
        fetches.records) := by simp [consumeStep,polled,errors]
  refine ⟨_,turn,?_⟩
  have delivers := process_delivers client lambda
    {s with client := c,events := s.events ++ fetches.records.map LoopEvent.polled} fetches.records
  rcases process_leads client log lambda
      {s with client := c,events := s.events ++ fetches.records.map LoopEvent.polled} fetches.records ahead with
    ⟨same,leads⟩ | ⟨offset,sought,leads⟩
  · rw [same]
    exact ⟨rests ▸ leads,.inl rfl,delivers⟩
  · rw [sought]
    exact ⟨(seeks offset).symm ▸ leads,.inr ⟨offset,rfl⟩,delivers⟩

theorem logClient_seek (log : PartitionLog) (pos offset : Int) :
    (logClient log).seek pos log.topic log.partition offset = offset := by
  simp [logClient]

@[simp] theorem batch_records (log : PartitionLog) (pos : Int) (size : Nat) :
    (log.batch pos size).records = (log.from pos).take size := by
  simp [PartitionLog.batch,Fetches.records,Fetches.partitions]

@[simp] theorem batch_errors (log : PartitionLog) (pos : Int) (size : Nat) : (log.batch pos size).errors = [] := rfl

theorem batch_ahead (log : PartitionLog) (pos : Int) (size : Nat) :
    log.from pos = (log.batch pos size).records ++ (log.from pos).drop size := by
  rw [batch_records,List.take_append_drop]

theorem direct_leads (log : PartitionLog) (lambda : Lambda) (s : Consumer Int) (size : Nat) :
    ∃ t, consumeStep (logClient log) lambda s size = some t ∧
      Leads log lambda ⟨s.client,s.processed⟩ ⟨t.client,t.processed⟩ := by
  have polled : (logClient log).poll s.client size = some (log.batch s.client size,_) := rfl
  obtain ⟨t,moved,leads,_⟩ := consume_leads (logClient log) id log lambda polled
    (batch_errors log s.client size) (batch_ahead log s.client size) rfl (logClient_seek log _)
  exact ⟨t,moved,leads⟩

-- Where the cached client stands: at the next offset to replay, or where the
-- client below it stands.
def CachedKafkaClient.position (c : CachedKafkaClient Int) : Int :=
  match c.seekTarget with
  | some target => target.offset
  | none => c.underlying

structure Replays (log : PartitionLog) (c : CachedKafkaClient Int) : Prop where
  ordered : Ordered c
  cached : ∀ entry ∈ c.cache, entry.2 ∈ log.records ∧ entry.1 = entry.2.key
  target : ∀ target, c.seekTarget = some target → target.topic = log.topic ∧ target.partition = log.partition

theorem seek_replays (replays : Replays log c) (offset : Int) : Replays log (c.seek log.topic log.partition offset) := by
  refine ⟨⟨replays.ordered.room,replays.ordered.distinct,replays.ordered.order⟩,replays.cached,?_⟩
  intro target same
  cases same
  exact ⟨rfl,rfl⟩

theorem fetch_parts (replays : Replays log c) (idle : c.seekTarget = none) (size : Nat) :
    ∃ d, c.fetch (logClient log) size = some (log.batch c.underlying size,d) ∧ Replays log d ∧
      d.seekTarget = none ∧ d.underlying = behind c.underlying (log.batch c.underlying size).records := by
  have ordered : Ordered {c with underlying := behind c.underlying (log.batch c.underlying size).records} :=
    ⟨replays.ordered.room,replays.ordered.distinct,replays.ordered.order⟩
  obtain ⟨d,put,sound,underlying,target,entries⟩ := putAll_ordered ordered (log.batch c.underlying size).records
  have still : d.seekTarget = none := target.trans idle
  refine ⟨d,?_,⟨sound,?_,?_⟩,still,?_⟩
  · simp only [CachedKafkaClient.fetch,logClient,Option.bind_some]
    rw [put]
    rfl
  · intro entry member
    rcases entries entry member with old | ⟨record,there,rfl⟩
    · exact replays.cached entry old
    · rw [batch_records] at there
      exact ⟨List.mem_of_mem_filter (List.mem_of_mem_take there),rfl⟩
  · intro other same
    rw [still] at same
    cases same
  · exact underlying

theorem poll_parts (replays : Replays log c) (size : Nat) :
    ∃ fetches d rest, (cached (logClient log)).poll c size = some (fetches,d) ∧ Replays log d ∧ fetches.errors = [] ∧
      log.from c.position = fetches.records ++ rest ∧ d.position = behind c.position fetches.records ∧
      (1 ≤ size → fetches.records = [] → log.from c.position = []) := by
  have through : ∀ e : CachedKafkaClient Int, Replays log e → e.seekTarget = none →
      ∃ fetches d rest, e.fetch (logClient log) size = some (fetches,d) ∧ Replays log d ∧ fetches.errors = [] ∧
        log.from e.underlying = fetches.records ++ rest ∧ d.position = behind e.underlying fetches.records ∧
        (1 ≤ size → fetches.records = [] → log.from e.underlying = []) := by
    intro e sound idle
    obtain ⟨d,got,kept,still,underlying⟩ := fetch_parts sound idle size
    refine ⟨_,d,_,got,kept,batch_errors _ _ _,batch_ahead _ _ _,?_,?_⟩
    · simpa [CachedKafkaClient.position,still] using underlying
    · intro some none
      rw [batch_records,List.take_eq_nil_iff] at none
      exact none.resolve_left (by omega)
  cases target : c.seekTarget with
  | none =>
      have here : c.position = c.underlying := by simp [CachedKafkaClient.position,target]
      have poll : (cached (logClient log)).poll c size = c.fetch (logClient log) size := by
        simp [cached,CachedKafkaClient.pollFetches,target]
      rw [here,poll]
      exact through c replays target
  | some wanted =>
      obtain ⟨topic,partition⟩ := replays.target wanted target
      have here : c.position = wanted.offset := by simp [CachedKafkaClient.position,target]
      rw [here]
      cases found : c.lookup ⟨wanted.topic,wanted.partition,wanted.offset⟩ with
      | none =>
          have poll : (cached (logClient log)).poll c size =
              {c with underlying := wanted.offset,seekTarget := none}.fetch (logClient log) size := by
            simp only [cached,CachedKafkaClient.pollFetches,target,found]
            rw [topic,partition,logClient_seek]
          rw [poll]
          refine through {c with underlying := wanted.offset,seekTarget := none} ?_ rfl
          exact ⟨⟨replays.ordered.room,replays.ordered.distinct,replays.ordered.order⟩,replays.cached,nofun⟩
      | some record =>
          obtain ⟨member,key⟩ : record ∈ log.records ∧ _ = record.key := replays.cached _ (lookup_parts found)
          have offset : wanted.offset = record.offset := congrArg CacheKey.offset key
          obtain ⟨rest,ahead⟩ := filter_at log.rising member
          have poll : (cached (logClient log)).poll c size = some (makeSingleRecordFetches record,
              {c.touchLRU ⟨wanted.topic,wanted.partition,wanted.offset⟩ with
                seekTarget := some {wanted with offset := wanted.offset + 1}}) := by
            simp only [cached,CachedKafkaClient.pollFetches,target,found]
          refine ⟨_,_,rest,poll,?_,rfl,?_,?_,nofun⟩
          · have touched := touch_ordered replays.ordered ⟨wanted.topic,wanted.partition,wanted.offset⟩
            refine ⟨⟨touched.room,touched.distinct,touched.order⟩,replays.cached,?_⟩
            intro other same
            cases same
            exact ⟨topic,partition⟩
          · rw [offset]
            exact ahead
          · change wanted.offset + 1 = record.offset + 1
            rw [offset]

theorem cached_leads (log : PartitionLog) (lambda : Lambda) {s : Consumer (CachedKafkaClient Int)}
    (replays : Replays log s.client) (size : Nat) :
    ∃ t, consumeStep (cached (logClient log)) lambda s size = some t ∧ Replays log t.client ∧
      Leads log lambda ⟨s.client.position,s.processed⟩ ⟨t.client.position,t.processed⟩ ∧
      (1 ≤ size → t.processed = s.processed → log.from s.client.position = []) := by
  obtain ⟨fetches,d,rest,poll,kept,errors,ahead,rests,last⟩ := poll_parts replays size
  obtain ⟨t,moved,leads,client,delivers⟩ := consume_leads (cached (logClient log)) CachedKafkaClient.position log lambda poll
    errors ahead rests fun _ => rfl
  refine ⟨t,moved,?_,leads,?_⟩
  · rcases client with same | ⟨offset,sought⟩
    · rw [same]
      exact kept
    · rw [sought]
      exact seek_replays kept offset
  · intro some nothing
    refine last some ?_
    by_contra delivered
    have more := delivers delivered
    rw [nothing] at more
    exact Nat.lt_irrefl _ more

theorem direct_run (log : PartitionLog) (lambda : Lambda) (sizes : List Nat) (s : Consumer Int) :
    ∃ t, run (consumeStep (logClient log) lambda) s sizes = some t ∧
      Leads log lambda ⟨s.client,s.processed⟩ ⟨t.client,t.processed⟩ := by
  induction sizes generalizing s with
  | nil => exact ⟨s,rfl,.refl⟩
  | cons size more ih =>
      obtain ⟨middle,moved,first⟩ := direct_leads log lambda s size
      obtain ⟨t,ran,rest⟩ := ih middle
      exact ⟨t,by simpa [run,moved] using ran,first.trans rest⟩

theorem cached_run (log : PartitionLog) (lambda : Lambda) (sizes : List Nat) {s : Consumer (CachedKafkaClient Int)}
    (replays : Replays log s.client) :
    ∃ t, run (consumeStep (cached (logClient log)) lambda) s sizes = some t ∧ Replays log t.client ∧
      Leads log lambda ⟨s.client.position,s.processed⟩ ⟨t.client.position,t.processed⟩ := by
  induction sizes generalizing s with
  | nil => exact ⟨s,rfl,replays,.refl⟩
  | cons size more ih =>
      obtain ⟨middle,moved,kept,first,_⟩ := cached_leads log lambda replays size
      obtain ⟨t,ran,final,rest⟩ := ih kept
      exact ⟨t,by simpa [run,moved] using ran,final,first.trans rest⟩

-- With the cache and without it the loop gives the lambda the same records: after
-- any polls of either, one sequence continues the other. A poll of at least one
-- record through the cache that gives nothing has given all there is.
theorem replay_transparent (log : PartitionLog) (lambda : Lambda) (start maxSize : Int) (room : 1 ≤ maxSize)
    (sizes others : List Nat) :
    ∃ s t, run (consumeStep (cached (logClient log)) lambda) (Consumer.new (newCachedKafkaClient start maxSize)) sizes =
        some s ∧
      run (consumeStep (logClient log) lambda) (Consumer.new start) others = some t ∧
      (s.processed <+: t.processed ∨ t.processed <+: s.processed) ∧
      ∀ size, 1 ≤ size → ∃ u, consumeStep (cached (logClient log)) lambda s size = some u ∧
        (u.processed = s.processed → t.processed <+: s.processed) := by
  have empty : Replays log (newCachedKafkaClient start maxSize) := ⟨new_ordered start room,nofun,nofun⟩
  obtain ⟨s,ranCached,kept,leadsCached⟩ := cached_run log lambda sizes (s := Consumer.new _) empty
  obtain ⟨t,ranDirect,leadsDirect⟩ := direct_run log lambda others (Consumer.new start)
  refine ⟨s,t,ranCached,ranDirect,?_,?_⟩
  · exact (leads_total leadsCached leadsDirect).imp leads_given leads_given
  · intro size some
    obtain ⟨u,moved,_,_,last⟩ := cached_leads log lambda kept size
    refine ⟨u,moved,?_⟩
    intro nothing
    have stuck : Reader.next log lambda ⟨s.client.position,s.processed⟩ = none := by
      simp [Reader.next,last some nothing]
    rcases leads_total leadsCached leadsDirect with ahead | behind
    · have same : t.processed = s.processed := congrArg Reader.given (leads_last stuck ahead)
      exact same ▸ List.prefix_refl _
    · exact leads_given behind

def holed : PartitionLog where
  topic := "topic"
  partition := 0
  records := [⟨"topic",0,0,"a"⟩,⟨"topic",0,2,"b"⟩,⟨"topic",0,3,"c"⟩]
  own := by decide
  rising := by decide

def rewindsOnce : Lambda := fun given => some (if given.length = 3 then "1" else "")

theorem replay_transparent_holed :
    ∃ s t, run (consumeStep (cached (logClient holed)) rewindsOnce) (Consumer.new (newCachedKafkaClient 0 2)) [3,1,1] =
        some s ∧
      run (consumeStep (logClient holed) rewindsOnce) (Consumer.new 0) [2,2,1] = some t ∧
      (s.processed <+: t.processed ∨ t.processed <+: s.processed) ∧ s.processed.length = 5 ∧ t.processed.length = 4 := by
  obtain ⟨s,t,ran,other,same,_⟩ := replay_transparent holed rewindsOnce 0 2 (by decide) [3,1,1] [2,2,1]
  refine ⟨s,t,ran,other,same,?_,?_⟩
  · have seen : (run (consumeStep (cached (logClient holed)) rewindsOnce) (Consumer.new (newCachedKafkaClient 0 2))
        [3,1,1]).map (·.processed.length) = some 5 := by decide +kernel
    rw [ran] at seen
    exact Option.some.inj seen
  · have seen : (run (consumeStep (logClient holed) rewindsOnce) (Consumer.new 0) [2,2,1]).map (·.processed.length) =
        some 4 := by decide +kernel
    rw [other] at seen
    exact Option.some.inj seen

end OpenLambda.Kafka
