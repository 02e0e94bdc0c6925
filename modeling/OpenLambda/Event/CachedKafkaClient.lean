import OpenLambda.Event.KafkaServer
import Mathlib.Data.List.Nodup

namespace OpenLambda.Kafka

structure CacheKey where
  topic : String
  partition : Int
  offset : Int
  deriving DecidableEq, Repr

structure SeekState where
  topic : String
  partition : Int
  offset : Int
  deriving DecidableEq, Repr

def KafkaRecord.key (record : KafkaRecord) : CacheKey := ⟨record.topic,record.partition,record.offset⟩

-- The front of evictOrder is the least recently used key.
structure CachedKafkaClient (σ : Type) where
  underlying : σ
  cache : List (CacheKey × KafkaRecord)
  evictOrder : List CacheKey
  maxSize : Int
  seekTarget : Option SeekState

def newCachedKafkaClient (underlying : σ) (maxSize : Int) : CachedKafkaClient σ := ⟨underlying,[],[],maxSize,none⟩

def CachedKafkaClient.seek (c : CachedKafkaClient σ) (topic : String) (partition offset : Int) : CachedKafkaClient σ :=
  {c with seekTarget := some ⟨topic,partition,offset⟩}

def CachedKafkaClient.lookup (c : CachedKafkaClient σ) (key : CacheKey) : Option KafkaRecord :=
  (c.cache.find? fun entry => decide (entry.1 = key)).map (·.2)

def CachedKafkaClient.touchLRU (c : CachedKafkaClient σ) (key : CacheKey) : CachedKafkaClient σ :=
  {c with evictOrder := if key ∈ c.evictOrder then c.evictOrder.erase key ++ [key] else c.evictOrder}

-- With nothing to evict, evictOrder[0] panics.
def CachedKafkaClient.put (c : CachedKafkaClient σ) (record : KafkaRecord) : Option (CachedKafkaClient σ) :=
  if (c.lookup record.key).isSome then some (c.touchLRU record.key)
  else if c.maxSize ≤ c.cache.length then
    match c.evictOrder with
    | [] => none
    | evictKey :: rest =>
        some {c with
          cache := (c.cache.filter fun entry => decide (entry.1 ≠ evictKey)) ++ [(record.key,record)]
          evictOrder := rest ++ [record.key]}
  else some {c with cache := c.cache ++ [(record.key,record)],evictOrder := c.evictOrder ++ [record.key]}

def CachedKafkaClient.putAll (c : CachedKafkaClient σ) : List KafkaRecord → Option (CachedKafkaClient σ)
  | [] => some c
  | record :: rest => (c.put record).bind (·.putAll rest)

def makeSingleRecordFetches (record : KafkaRecord) : Fetches :=
  [[⟨record.topic,[⟨record.partition,none,[record]⟩]⟩]]

def CachedKafkaClient.fetch (u : Client σ ι) (c : CachedKafkaClient σ) (input : ι) :
    Option (Fetches × CachedKafkaClient σ) :=
  (u.poll c.underlying input).bind fun (fetches,underlying) =>
    ({c with underlying := underlying}.putAll fetches.records).map fun filled => (fetches,filled)

def CachedKafkaClient.pollFetches (u : Client σ ι) (c : CachedKafkaClient σ) (input : ι) :
    Option (Fetches × CachedKafkaClient σ) :=
  match c.seekTarget with
  | none => c.fetch u input
  | some target => match c.lookup ⟨target.topic,target.partition,target.offset⟩ with
      | some record =>
          some (makeSingleRecordFetches record,
            {c.touchLRU ⟨target.topic,target.partition,target.offset⟩ with
              seekTarget := some {target with offset := target.offset + 1}})
      | none =>
          {c with
            underlying := u.seek c.underlying target.topic target.partition target.offset
            seekTarget := none}.fetch u input

def cached (u : Client σ ι) : Client (CachedKafkaClient σ) ι := ⟨CachedKafkaClient.pollFetches u,CachedKafkaClient.seek⟩

theorem lookup_parts {c : CachedKafkaClient σ} (found : c.lookup key = some record) : (key,record) ∈ c.cache := by
  obtain ⟨⟨other,value⟩,present,rfl⟩ := Option.map_eq_some_iff.mp found
  have same : other = key := by simpa using List.find?_some present
  subst same
  exact List.mem_of_find?_eq_some present

theorem lookup_none {c : CachedKafkaClient σ} (missing : (c.lookup key).isSome = false) :
    key ∉ c.cache.map (·.1) := by
  intro member
  obtain ⟨entry,present,rfl⟩ := List.mem_map.mp member
  have absent : c.cache.find? (fun other => decide (other.1 = entry.1)) = none := by
    simpa [CachedKafkaClient.lookup] using missing
  have different := List.find?_eq_none.mp absent entry present
  simp at different

-- evictOrder lists the keys of the cache, each once; so with room for one record
-- there is always a key to evict.
structure Ordered (c : CachedKafkaClient σ) : Prop where
  room : 1 ≤ c.maxSize
  distinct : (c.cache.map (·.1)).Nodup
  order : c.evictOrder.Perm (c.cache.map (·.1))

theorem new_ordered (underlying : σ) (room : 1 ≤ maxSize) : Ordered (newCachedKafkaClient underlying maxSize) :=
  ⟨room,List.nodup_nil,List.Perm.refl _⟩

theorem touch_ordered {c : CachedKafkaClient σ} (ordered : Ordered c) (key : CacheKey) : Ordered (c.touchLRU key) := by
  refine ⟨ordered.room,ordered.distinct,?_⟩
  unfold CachedKafkaClient.touchLRU
  dsimp only
  split
  · rename_i member
    have back := (List.perm_cons_erase member).symm
    exact (List.perm_append_comm.trans back).trans ordered.order
  · exact ordered.order

theorem evicted_keys {c : CachedKafkaClient σ} (ordered : Ordered c) (front : c.evictOrder = key :: rest) :
    rest.Perm ((c.cache.filter fun entry => decide (entry.1 ≠ key)).map (·.1)) := by
  have order := ordered.order
  rw [front] at order
  have absent : key ∉ rest := (List.nodup_cons.mp (order.nodup_iff.mpr ordered.distinct)).1
  have kept := order.filter fun other => decide (other ≠ key)
  have whole : rest.filter (fun other => decide (other ≠ key)) = rest := by
    rw [List.filter_eq_self]
    intro other member
    have different : other ≠ key := fun same => absent (same ▸ member)
    simpa using different
  rw [List.filter_cons_of_neg (by simp),whole,List.filter_map] at kept
  exact kept

theorem put_ordered {c : CachedKafkaClient σ} (ordered : Ordered c) (record : KafkaRecord) :
    ∃ d, c.put record = some d ∧ Ordered d ∧ d.underlying = c.underlying ∧ d.seekTarget = c.seekTarget ∧
      ∀ entry ∈ d.cache, entry ∈ c.cache ∨ entry = (record.key,record) := by
  unfold CachedKafkaClient.put
  by_cases present : (c.lookup record.key).isSome = true
  · rw [if_pos present]
    exact ⟨_,rfl,touch_ordered ordered _,rfl,rfl,fun entry member => .inl member⟩
  · rw [if_neg present]
    have absent := lookup_none (by simpa using present)
    by_cases full : c.maxSize ≤ c.cache.length
    · rw [if_pos full]
      cases front : c.evictOrder with
      | nil =>
          have length := ordered.order.length_eq
          have room := ordered.room
          simp only [front,List.length_nil,List.length_map] at length
          omega
      | cons key rest =>
          have kept := evicted_keys ordered front
          refine ⟨_,rfl,⟨ordered.room,?_,?_⟩,rfl,rfl,?_⟩
          · dsimp only
            rw [List.map_append,List.map_singleton,← List.concat_eq_append]
            refine List.Nodup.concat ?_ (ordered.distinct.sublist (List.filter_sublist.map _))
            exact fun member => absent ((List.filter_sublist.map _).subset member)
          · dsimp only
            rw [List.map_append,List.map_singleton]
            exact kept.append_right _
          · intro entry member
            rcases List.mem_append.mp member with old | new
            · exact .inl (List.mem_of_mem_filter old)
            · exact .inr (List.mem_singleton.mp new)
    · rw [if_neg full]
      refine ⟨_,rfl,⟨ordered.room,?_,?_⟩,rfl,rfl,?_⟩
      · dsimp only
        rw [List.map_append,List.map_singleton,← List.concat_eq_append]
        exact List.Nodup.concat absent ordered.distinct
      · dsimp only
        rw [List.map_append,List.map_singleton]
        exact ordered.order.append_right _
      · intro entry member
        exact (List.mem_append.mp member).imp id List.mem_singleton.mp

theorem putAll_ordered {c : CachedKafkaClient σ} (ordered : Ordered c) (records : List KafkaRecord) :
    ∃ d, c.putAll records = some d ∧ Ordered d ∧ d.underlying = c.underlying ∧ d.seekTarget = c.seekTarget ∧
      ∀ entry ∈ d.cache, entry ∈ c.cache ∨ ∃ record ∈ records, entry = (record.key,record) := by
  induction records generalizing c with
  | nil => exact ⟨c,rfl,ordered,rfl,rfl,fun entry member => .inl member⟩
  | cons record rest ih =>
      obtain ⟨middle,one,sound,underlying,target,first⟩ := put_ordered ordered record
      obtain ⟨d,others,final,underlying',target',later⟩ := ih sound
      refine ⟨d,by simp [CachedKafkaClient.putAll,one,others],final,underlying'.trans underlying,target'.trans target,?_⟩
      intro entry member
      rcases later entry member with old | ⟨other,there,same⟩
      · rcases first entry old with older | new
        · exact .inl older
        · exact .inr ⟨record,by simp,new⟩
      · exact .inr ⟨other,by simp [there],same⟩

end OpenLambda.Kafka
