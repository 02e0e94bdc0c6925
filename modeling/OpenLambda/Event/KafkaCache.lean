import OpenLambda.Common.Config
import OpenLambda.Event.CachedKafkaClient
import OpenLambda.Foundation.Recency

namespace OpenLambda.Kafka
open Foundation.Runs Foundation.Recency Common

inductive CacheCall where
  | put (record : KafkaRecord)
  | hit (key : CacheKey)
  deriving DecidableEq, Repr

def CacheCall.key : CacheCall → CacheKey
  | .put record => record.key
  | .hit key => key

def fetchCalls (u : Client σ ι) (underlying : σ) (input : ι) : List CacheCall :=
  match u.poll underlying input with
  | none => []
  | some (fetches,_) => fetches.records.map .put

def SeekState.key (target : SeekState) : CacheKey := ⟨target.topic,target.partition,target.offset⟩

def CachedKafkaClient.pollCalls (u : Client σ ι) (c : CachedKafkaClient σ) (input : ι) : List CacheCall :=
  match c.seekTarget with
  | none => fetchCalls u c.underlying input
  | some target =>
      if (c.lookup target.key).isSome then [.hit target.key]
      else fetchCalls u (u.seek c.underlying target.topic target.partition target.offset) input

structure Recorded (σ : Type) where
  client : CachedKafkaClient σ
  calls : List CacheCall

inductive ClientAction (ι : Type) where
  | seek (topic : String) (partition offset : Int)
  | pollFetches (input : ι)

def clientStep (u : Client σ ι) (s : Recorded σ) : ClientAction ι → Option (Recorded σ)
  | .seek topic partition offset => some {s with client := s.client.seek topic partition offset}
  | .pollFetches input => (s.client.pollFetches u input).map fun polled => ⟨polled.2,s.calls ++ s.client.pollCalls u input⟩

-- The record was stored when its key was not cached, and the key has been cached
-- after every call since.
def StoredSince (size : Nat) (calls : List CacheCall) (key : CacheKey) (record : KafkaRecord) : Prop :=
  ∃ early late, calls = early ++ .put record :: late ∧ record.key = key ∧
    key ∉ recent size (early.map (·.key)) ∧
    ∀ more, more <+: late → key ∈ recent size ((early ++ .put record :: more).map (·.key))

structure Lru (cache : List (CacheKey × KafkaRecord)) (evictOrder : List CacheKey) (size : Nat) (calls : List CacheCall) :
    Prop where
  keys : evictOrder = recent size (calls.map (·.key))
  stored : ∀ entry ∈ cache, StoredSince size calls entry.1 entry.2

theorem storedSince_later (since : StoredSince size calls key record)
    (still : key ∈ recent size ((calls ++ [call]).map (·.key))) : StoredSince size (calls ++ [call]) key record := by
  obtain ⟨early,late,rfl,same,absent,kept⟩ := since
  refine ⟨early,late ++ [call],by simp,same,absent,?_⟩
  intro more ahead
  rcases List.prefix_concat_iff.mp ahead with rfl | shorter
  · simpa using still
  · exact kept more shorter

theorem storedSince_new (absent : record.key ∉ recent size (calls.map (·.key)))
    (now : record.key ∈ recent size ((calls ++ [.put record]).map (·.key))) :
    StoredSince size (calls ++ [.put record]) record.key record := by
  refine ⟨calls,[],rfl,rfl,absent,?_⟩
  intro more ahead
  rw [List.prefix_nil.mp ahead]
  exact now

theorem put_parts {c : CachedKafkaClient σ} (done : c.put record = some d) :
    ((c.lookup record.key).isSome = true ∧ d = c.touchLRU record.key) ∨
    (c.lookup record.key).isSome = false ∧
      ((∃ evictKey rest, c.maxSize ≤ c.cache.length ∧ c.evictOrder = evictKey :: rest ∧
        d = {c with
          cache := (c.cache.filter fun entry => decide (entry.1 ≠ evictKey)) ++ [(record.key,record)]
          evictOrder := rest ++ [record.key]}) ∨
      (c.cache.length < c.maxSize ∧
        d = {c with cache := c.cache ++ [(record.key,record)],evictOrder := c.evictOrder ++ [record.key]})) := by
  unfold CachedKafkaClient.put at done
  split at done
  · rename_i present
    cases done
    exact .inl ⟨present,rfl⟩
  · rename_i missing
    refine .inr ⟨Bool.eq_false_iff.mpr missing,?_⟩
    split at done
    · rename_i full
      split at done
      · cases done
      · rename_i evictKey rest front
        cases done
        exact .inl ⟨evictKey,rest,full,front,rfl⟩
    · rename_i room
      cases done
      exact .inr ⟨by omega,rfl⟩

theorem lookup_isSome {c : CachedKafkaClient σ} : (c.lookup key).isSome = true ↔ key ∈ c.cache.map (·.1) := by
  constructor
  · intro present
    obtain ⟨record,found⟩ := Option.isSome_iff_exists.mp present
    exact List.mem_map.mpr ⟨_,lookup_parts found,rfl⟩
  · intro member
    by_contra missing
    exact lookup_none (Bool.eq_false_iff.mpr missing) member

theorem ordered_mem {c : CachedKafkaClient σ} (ordered : Ordered c) (key : CacheKey) :
    key ∈ c.evictOrder ↔ (c.lookup key).isSome = true := by
  rw [lookup_isSome,ordered.order.mem_iff]

theorem touch_lru (call : CacheCall) {c : CachedKafkaClient σ} (ordered : Ordered c) (lru : Lru c.cache c.evictOrder size calls)
    (present : (c.lookup call.key).isSome = true) :
    Lru (c.touchLRU call.key).cache (c.touchLRU call.key).evictOrder size (calls ++ [call]) := by
  have member := (ordered_mem ordered call.key).mpr present
  have moved : (c.touchLRU call.key).evictOrder = recent size ((calls ++ [call]).map (·.key)) := by
    have again : recent size (calls.map (·.key) ++ [call.key]) = _ := recent_again (lru.keys ▸ member)
    rw [List.map_append,List.map_singleton,again,← lru.keys]
    exact if_pos member
  refine ⟨moved,?_⟩
  intro entry inside
  refine storedSince_later (lru.stored entry inside) ?_
  rw [← moved,ordered_mem (touch_ordered ordered call.key) entry.1,lookup_isSome]
  exact List.mem_map_of_mem inside

theorem put_lru {c : CachedKafkaClient σ} (ordered : Ordered c) (lru : Lru c.cache c.evictOrder c.maxSize.toNat calls)
    (done : c.put record = some d) : Lru d.cache d.evictOrder c.maxSize.toNat (calls ++ [.put record]) := by
  rcases put_parts done with ⟨present,rfl⟩ | ⟨missing,stored⟩
  · exact touch_lru (.put record) ordered lru present
  · obtain ⟨after,same,valid,_,_,origin⟩ := put_ordered ordered record
    obtain rfl : after = d := Option.some.inj (same.symm.trans done)
    have absent : record.key ∉ recent c.maxSize.toNat (calls.map (·.key)) := by
      rw [← lru.keys,ordered_mem ordered,missing]
      exact Bool.false_ne_true
    have size : (recent c.maxSize.toNat (calls.map (·.key))).length = c.cache.length := by
      rw [← lru.keys,ordered.order.length_eq,List.length_map]
    have keys : after.evictOrder = recent c.maxSize.toNat ((calls ++ [CacheCall.put record]).map (·.key)) := by
      rw [List.map_append,List.map_singleton]
      rcases stored with ⟨evictKey,rest,full,front,rfl⟩ | ⟨room,rfl⟩
      · have most := recent_length_le c.maxSize.toNat (calls.map (·.key))
        exact (recent_instead absent (lru.keys ▸ front) (by omega)).symm
      · change c.evictOrder ++ [record.key] = _
        rw [lru.keys]
        exact (recent_new absent (by omega)).symm
    refine ⟨keys,?_⟩
    intro entry inside
    have now : entry.1 ∈ recent c.maxSize.toNat ((calls ++ [CacheCall.put record]).map (·.key)) := by
      rw [← keys,ordered_mem valid,lookup_isSome]
      exact List.mem_map_of_mem inside
    rcases origin entry inside with old | rfl
    · exact storedSince_later (lru.stored entry old) now
    · exact storedSince_new absent now

theorem put_maxSize {c : CachedKafkaClient σ} (done : c.put record = some d) : d.maxSize = c.maxSize := by
  rcases put_parts done with ⟨_,rfl⟩ | ⟨_,⟨_,_,_,_,rfl⟩ | ⟨_,rfl⟩⟩
  all_goals rfl

theorem putAll_lru {c : CachedKafkaClient σ} (ordered : Ordered c) (lru : Lru c.cache c.evictOrder c.maxSize.toNat calls)
    (done : c.putAll records = some d) :
    Ordered d ∧ d.maxSize = c.maxSize ∧ Lru d.cache d.evictOrder c.maxSize.toNat (calls ++ records.map .put) := by
  induction records generalizing c calls with
  | nil =>
      cases done
      exact ⟨ordered,rfl,by simpa using lru⟩
  | cons record rest ih =>
      obtain ⟨middle,one,others⟩ := Option.bind_eq_some_iff.mp done
      obtain ⟨after,same,valid,_⟩ := put_ordered ordered record
      obtain rfl : after = middle := Option.some.inj (same.symm.trans one)
      have size := put_maxSize one
      obtain ⟨final,kept,all⟩ := ih valid (by rw [size]; exact put_lru ordered lru one) others
      rw [size,List.append_assoc] at all
      exact ⟨final,kept.trans size,all⟩

structure Refines (maxSize : Int) (s : Recorded σ) : Prop where
  ordered : Ordered s.client
  size : s.client.maxSize = maxSize
  lru : Lru s.client.cache s.client.evictOrder maxSize.toNat s.calls

theorem fetch_refines {s : Recorded σ} (refines : Refines maxSize s) (done : s.client.fetch u input = some (fetches,d)) :
    Refines maxSize ⟨d,s.calls ++ fetchCalls u s.client.underlying input⟩ := by
  obtain ⟨⟨fetched,underlying⟩,polled,rest⟩ := Option.bind_eq_some_iff.mp done
  obtain ⟨filled,all,same⟩ := Option.map_eq_some_iff.mp rest
  cases same
  have ordered : Ordered {s.client with underlying := underlying} :=
    ⟨refines.ordered.room,refines.ordered.distinct,refines.ordered.order⟩
  have lru := refines.lru
  rw [← refines.size] at lru
  obtain ⟨valid,kept,final⟩ := putAll_lru ordered lru all
  refine ⟨valid,kept.trans refines.size,?_⟩
  rw [fetchCalls,polled,← refines.size]
  exact final

theorem poll_refines {s : Recorded σ} (refines : Refines maxSize s)
    (done : s.client.pollFetches u input = some (fetches,d)) :
    Refines maxSize ⟨d,s.calls ++ s.client.pollCalls u input⟩ := by
  unfold CachedKafkaClient.pollFetches at done
  unfold CachedKafkaClient.pollCalls
  cases target : s.client.seekTarget with
  | none =>
      rw [target] at done
      exact fetch_refines refines done
  | some wanted =>
      have ordered := refines.ordered
      cases found : s.client.lookup ⟨wanted.topic,wanted.partition,wanted.offset⟩ with
      | none =>
          simp only [target,found] at done
          have sought : Refines maxSize ⟨{s.client with
              underlying := u.seek s.client.underlying wanted.topic wanted.partition wanted.offset
              seekTarget := none},s.calls⟩ :=
            ⟨⟨ordered.room,ordered.distinct,ordered.order⟩,refines.size,refines.lru⟩
          simp only [SeekState.key,found,Option.isSome_none,Bool.false_eq_true,if_false]
          exact fetch_refines sought done
      | some record =>
          simp only [target,found,Option.some.injEq,Prod.mk.injEq] at done
          obtain ⟨_,rfl⟩ := done
          have present : (s.client.lookup wanted.key).isSome = true := by
            rw [SeekState.key,found]
            rfl
          have touched := touch_ordered ordered wanted.key
          have lru := touch_lru (.hit wanted.key) ordered refines.lru present
          dsimp only
          rw [if_pos present]
          exact ⟨⟨touched.room,touched.distinct,touched.order⟩,refines.size,lru⟩

theorem step_refines (u : Client σ ι) (s : Recorded σ) (action : ClientAction ι) (t : Recorded σ)
    (refines : Refines maxSize s) (moved : clientStep u s action = some t) : Refines maxSize t := by
  cases action with
  | seek topic partition offset =>
      cases moved
      have ordered := refines.ordered
      exact ⟨⟨ordered.room,ordered.distinct,ordered.order⟩,refines.size,refines.lru⟩
  | pollFetches input =>
      obtain ⟨⟨fetches,d⟩,polled,rfl⟩ := Option.map_eq_some_iff.mp moved
      exact poll_refines refines polled

theorem new_refines (underlying : σ) (room : 1 ≤ maxSize) : Refines maxSize ⟨newCachedKafkaClient underlying maxSize,[]⟩ := by
  refine ⟨new_ordered underlying room,rfl,?_,?_⟩
  · simp [newCachedKafkaClient,recent]
  · intro entry member
    cases member

theorem reached_refines {u : Client σ ι} (room : 1 ≤ maxSize)
    (ran : run (clientStep u) ⟨newCachedKafkaClient underlying maxSize,[]⟩ actions = some s) : Refines maxSize s :=
  run_preserves (Refines maxSize) (step_refines u) (new_refines underlying room) ran

theorem cache_is_lru {u : Client σ ι} (room : 1 ≤ maxSize)
    (ran : run (clientStep u) ⟨newCachedKafkaClient underlying maxSize,[]⟩ actions = some s) :
    s.client.evictOrder.Nodup ∧ (∀ key, key ∈ s.client.evictOrder ↔ (s.client.lookup key).isSome = true) ∧
    (s.client.evictOrder.length : Int) ≤ maxSize ∧
    s.client.evictOrder = recent maxSize.toNat (s.calls.map (·.key)) ∧
    ∀ key record, s.client.lookup key = some record → StoredSince maxSize.toNat s.calls key record := by
  obtain ⟨ordered,_,keys,stored⟩ := reached_refines room ran
  refine ⟨?_,ordered_mem ordered,?_,keys,?_⟩
  · rw [keys]
    exact recent_nodup ..
  · have most := recent_length_le maxSize.toNat (s.calls.map (·.key))
    rw [keys]
    omega
  · intro key record found
    exact stored (key,record) (lookup_parts found)

def recordAt (offset : Int) : KafkaRecord := ⟨"orders",0,offset,"payload"⟩

def oneFetch (records : List KafkaRecord) : Fetches := [[⟨"orders",[⟨0,none,records⟩]⟩]]

def replayActions : List (ClientAction Fetches) :=
  [.pollFetches (oneFetch [recordAt 0,recordAt 1]),.seek "orders" 0 1,.pollFetches [],.seek "orders" 0 0,.pollFetches [],
    .seek "orders" 0 2,.pollFetches (oneFetch [recordAt 2])]

theorem cache_is_lru_replay :
    ∃ s, run (clientStep scripted) ⟨newCachedKafkaClient () 2,[]⟩ replayActions = some s ∧
      s.client.evictOrder = [⟨"orders",0,0⟩,⟨"orders",0,2⟩] ∧
      s.client.evictOrder = recent 2 (s.calls.map (·.key)) ∧
      StoredSince 2 s.calls ⟨"orders",0,0⟩ (recordAt 0) := by
  obtain ⟨s,ran,order,found⟩ : ∃ s, run (clientStep scripted) ⟨newCachedKafkaClient () 2,[]⟩ replayActions = some s ∧
      s.client.evictOrder = [⟨"orders",0,0⟩,⟨"orders",0,2⟩] ∧ s.client.lookup ⟨"orders",0,0⟩ = some (recordAt 0) :=
    ⟨_,rfl,rfl,rfl⟩
  obtain ⟨_,_,_,keys,stored⟩ := cache_is_lru (by decide) ran
  exact ⟨s,ran,order,keys,stored _ _ found⟩

def consumerClient (kafkaCfg : KafkaConfig) (underlying : σ) : Option (CachedKafkaClient σ) :=
  if kafkaCfg.cacheEnabled then some (newCachedKafkaClient underlying kafkaCfg.cacheSize.toInt) else none

-- Over a client that does not panic itself, no PollFetches indexes an empty
-- evictOrder.
def NeverCrashes (kafkaCfg : KafkaConfig) : Prop :=
  ∀ (σ ι : Type) (u : Client σ ι), (∀ s input, ∃ polled, u.poll s input = some polled) →
    ∀ underlying c, consumerClient kafkaCfg underlying = some c →
      ∀ actions, ∃ s, run (clientStep u) ⟨c,[]⟩ actions = some s

theorem fetch_returns {u : Client σ ι} (calm : ∀ s input, ∃ polled, u.poll s input = some polled)
    {c : CachedKafkaClient σ} (ordered : Ordered c) (input : ι) : ∃ polled, c.fetch u input = some polled := by
  obtain ⟨⟨fetches,underlying⟩,polled⟩ := calm c.underlying input
  have same : Ordered {c with underlying := underlying} := ⟨ordered.room,ordered.distinct,ordered.order⟩
  obtain ⟨d,all,_⟩ := putAll_ordered same fetches.records
  exact ⟨(fetches,d),by simp only [CachedKafkaClient.fetch,polled,Option.bind_some,all,Option.map_some]⟩

theorem poll_returns {u : Client σ ι} (calm : ∀ s input, ∃ polled, u.poll s input = some polled)
    {c : CachedKafkaClient σ} (ordered : Ordered c) (input : ι) : ∃ polled, c.pollFetches u input = some polled := by
  unfold CachedKafkaClient.pollFetches
  split
  · exact fetch_returns calm ordered input
  · rename_i target _
    split
    · exact ⟨_,rfl⟩
    · have sought : Ordered {c with
          underlying := u.seek c.underlying target.topic target.partition target.offset
          seekTarget := none} := ⟨ordered.room,ordered.distinct,ordered.order⟩
      exact fetch_returns calm sought input

theorem run_returns {u : Client σ ι} (calm : ∀ s input, ∃ polled, u.poll s input = some polled) {s : Recorded σ}
    (refines : Refines maxSize s) (actions : List (ClientAction ι)) : ∃ t, run (clientStep u) s actions = some t := by
  induction actions generalizing s with
  | nil => exact ⟨s,rfl⟩
  | cons action rest ih =>
      obtain ⟨middle,moved⟩ : ∃ middle, clientStep u s action = some middle := by
        cases action with
        | seek topic partition offset => exact ⟨_,rfl⟩
        | pollFetches input =>
            obtain ⟨polled,done⟩ := poll_returns calm refines.ordered input
            exact ⟨_,by rw [clientStep,done,Option.map_some]⟩
      obtain ⟨t,ran⟩ := ih (step_refines u s action middle refines moved)
      exact ⟨t,by rw [run,moved]; exact ran⟩

theorem put_new_none (underlying : σ) (none : maxSize ≤ 0) (record : KafkaRecord) :
    (newCachedKafkaClient underlying maxSize).put record = Option.none := by
  unfold CachedKafkaClient.put
  rw [if_neg (by simp [newCachedKafkaClient,CachedKafkaClient.lookup]),if_pos (by simpa [newCachedKafkaClient] using none)]
  rfl

theorem poll_new_none (none : maxSize ≤ 0) :
    clientStep scripted ⟨newCachedKafkaClient () maxSize,[]⟩ (.pollFetches (oneFetch [recordAt 0])) = Option.none := by
  change ((((newCachedKafkaClient () maxSize).put (recordAt 0)).bind some).map _).map _ = _
  rw [put_new_none () none]
  rfl

theorem cache_never_crashes {cfg : Config} (enabled : cfg.kafka.cacheEnabled = true) :
    NeverCrashes cfg.kafka ↔ 1 ≤ cfg.kafka.cacheSize := by
  have client : ∀ {σ : Type} (underlying : σ),
      consumerClient cfg.kafka underlying = some (newCachedKafkaClient underlying cfg.kafka.cacheSize.toInt) :=
    fun _ => if_pos enabled
  rw [Int64.le_iff_toInt_le]
  change _ ↔ 1 ≤ cfg.kafka.cacheSize.toInt
  constructor
  · intro never
    by_contra small
    obtain ⟨s,ran⟩ := never Unit Fetches scripted (fun _ _ => ⟨_,rfl⟩) () _ (client ())
      [.pollFetches (oneFetch [recordAt 0])]
    obtain ⟨middle,moved,_⟩ := run_cons_parts ran
    rw [poll_new_none (by omega)] at moved
    cases moved
  · intro room σ ι u calm underlying c made actions
    rw [client] at made
    cases made
    exact run_returns calm (new_refines underlying room) actions

theorem cache_never_crashes_default :
    loadDefaults plainHost "/ol" = .ok plainConfig ∧ NeverCrashes plainConfig.kafka :=
  ⟨by decide +kernel,(cache_never_crashes rfl).mpr (by decide)⟩

def sizeOmitted : Config := {plainConfig with kafka := ⟨true,0⟩}

theorem cache_crashes_on_first_record :
    loadGlobalConfig (fileHost sizeOmitted) "/ol/worker/config.json" = .ok sizeOmitted ∧
    sizeOmitted.kafka.cacheEnabled = true ∧
    ∃ c, consumerClient sizeOmitted.kafka () = some c ∧ c.evictOrder = [] ∧
      (∃ polled, scripted.poll () (oneFetch [recordAt 0]) = some polled) ∧
      c.put (recordAt 0) = none ∧ c.pollFetches scripted (oneFetch [recordAt 0]) = none := by
  exact ⟨by decide +kernel,rfl,_,rfl,rfl,⟨_,rfl⟩,rfl,rfl⟩

end OpenLambda.Kafka
