import OpenLambda.Wasm.Bindings

namespace OpenLambda.Wasm
open Foundation.Traces

def Fits (offset : Int32) (len size : Nat) : Prop := len = 0 ∨ 0 ≤ offset.toInt ∧ offset.toInt + len ≤ size

section Rules
variable {host : Host}

@[simp] theorem touch_bind {next : Unit → HostCall β} : Always Access.InGuest (touch offset len >>= next) host ↔
    Fits offset len host.memory.size ∧ Always Access.InGuest (next ()) host := always_emit_bind _ next

@[simp] theorem store_bind {next : Unit → HostCall β} : Always Access.InGuest (store offset data >>= next) host ↔
    Always Access.InGuest (next ()) {host with memory := host.memory.store offset.toInt data} := always_change_bind _ next

theorem getSlice_bind {next : List UInt8 → HostCall β} : Always Access.InGuest (getSlice offset len >>= next) host ↔
    Fits offset len.toNat host.memory.size ∧
      Always Access.InGuest (next (host.memory.load offset.toInt len.toNat)) host := by
  unfold getSlice
  rw [bind_assoc,touch_bind,always_ask_bind]

theorem getSliceMut_bind {next : Unit → HostCall β} :
    Always Access.InGuest (getSliceMut offset len data >>= next) host ↔ Fits offset len.toNat host.memory.size ∧
      Always Access.InGuest (next ()) {host with memory := host.memory.store offset.toInt data} := by
  unfold getSliceMut
  rw [bind_assoc,touch_bind,store_bind]

theorem getStr_bind {next : String → HostCall β} : Always Access.InGuest (getStr guest offset len >>= next) host ↔
    Fits offset len.toNat host.memory.size ∧ ∀ text, guest.fromUtf8 (host.memory.load offset.toInt len.toNat) = some text →
      Always Access.InGuest (next text) host := by
  unfold getStr
  rw [bind_assoc,touch_bind,bind_assoc,always_ask_bind,always_demand_bind]

theorem needMemory_bind {next : Unit → HostCall β} : Always Access.InGuest (needMemory guest >>= next) host ↔
    (guest.memoryExport = true → Always Access.InGuest (next ()) host) := always_require_bind _ _ next

theorem needAlloc_bind {next : Unit → HostCall β} : Always Access.InGuest (needAlloc guest >>= next) host ↔
    (guest.allocExport = true → Always Access.InGuest (next ()) host) := always_require_bind _ _ next

theorem allocBuffer_bind {next : Int32 → HostCall β} : Always Access.InGuest (allocBuffer guest size >>= next) host ↔
    ∀ after value, guest.allocBuffer host size = some (after,value) → Always Access.InGuest (next value.toInt32) after := by
  unfold allocBuffer
  rw [bind_assoc,always_ask_bind,bind_assoc,always_demand_bind]
  constructor
  · intro all after value returned
    have later := all (after,value) returned
    rw [bind_assoc,always_change_bind,always_pure_bind] at later
    exact later
  · rintro all ⟨after,value⟩ returned
    rw [bind_assoc,always_change_bind,always_pure_bind]
    exact all after value returned

theorem setU64_bind {next : Unit → HostCall β} : Always Access.InGuest (setU64 offset value >>= next) host ↔
    Fits offset 8 host.memory.size ∧
      Always Access.InGuest (next ()) {host with memory := host.memory.store offset.toInt (bytesOf value)} := by
  unfold setU64
  rw [bind_assoc,touch_bind,store_bind]

theorem fillSlice_bind {next : Unit → HostCall β} : Always Access.InGuest (fillSlice offset data >>= next) host ↔
    Fits offset data.length host.memory.size ∧ (0 ≤ offset.toInt → Always Access.InGuest (next ())
      {host with memory := (host.memory.store offset.toInt data).store offset.toInt data}) := by
  unfold fillSlice
  rw [bind_assoc,touch_bind,bind_assoc,store_bind,bind_assoc,always_require_bind]
  constructor
  · rintro ⟨first,rest⟩
    refine ⟨first,?_⟩
    intro positive
    have later := rest positive
    rw [bind_assoc,touch_bind,store_bind] at later
    exact later.2
  · rintro ⟨first,rest⟩
    refine ⟨first,?_⟩
    intro positive
    rw [bind_assoc,touch_bind,store_bind]
    exact ⟨first,rest positive⟩

theorem written_always : Always Access.InGuest (do fillSlice offset data; setU64 lenOut value; pure a) host ↔
    Fits offset data.length host.memory.size ∧ (0 ≤ offset.toInt → Fits lenOut 8 host.memory.size) := by
  rw [fillSlice_bind]
  refine and_congr_right fun _ => forall_congr' fun _ => ?_
  rw [setU64_bind,always_pure,and_true]
  exact Iff.rfl

theorem callAllocate_bind {next : Int32 → HostCall β} : Always Access.InGuest (callAllocate guest size >>= next) host ↔
    (guest.memoryExport = true → guest.allocExport = true → ∀ after value,
      guest.allocBuffer host size.toInt32 = some (after,value) → 0 ≤ value.toInt32.toInt →
        value.toInt32.toInt + size.toNat ≤ after.memory.size → Always Access.InGuest (next value.toInt32) after) := by
  unfold callAllocate
  rw [bind_assoc,needMemory_bind]
  refine forall_congr' fun _ => ?_
  rw [bind_assoc,needAlloc_bind]
  refine forall_congr' fun _ => ?_
  rw [bind_assoc,allocBuffer_bind]
  refine forall_congr' fun after => forall_congr' fun value => forall_congr' fun _ => ?_
  rw [bind_assoc,always_require_bind]
  refine forall_congr' fun _ => ?_
  rw [bind_assoc,always_ask_bind,bind_assoc,always_require_bind]
  refine forall_congr' fun _ => ?_
  rw [always_pure_bind]

end Rules

-- The guest's buffer has room for the result, whose length call_allocate has seen
-- modulo 2^32, and there is room for the length.
def ResultFits (guest : Guest) (host : Host) (result : CallResult) (lenOut : Int32) : Prop :=
  guest.memoryExport = true → guest.allocExport = true → ∀ after value,
    guest.allocBuffer host (UInt32.ofNat (guest.serializeResult result).length).toInt32 = some (after,value) →
      0 ≤ value.toInt32.toInt →
      value.toInt32.toInt + (UInt32.ofNat (guest.serializeResult result).length).toNat ≤ after.memory.size →
      Fits value.toInt32 (guest.serializeResult result).length after.memory.size ∧ Fits lenOut 8 after.memory.size

theorem returnResult_always (guest : Guest) (host : Host) (result : CallResult) (lenOut : Int32) :
    Always Access.InGuest (returnResult guest result lenOut) host ↔ ResultFits guest host result lenOut := by
  unfold returnResult ResultFits
  dsimp only
  rw [callAllocate_bind]
  refine forall_congr' fun _ => forall_congr' fun _ => forall_congr' fun after => forall_congr' fun value =>
    forall_congr' fun _ => forall_congr' fun positive => forall_congr' fun _ => ?_
  rw [written_always]
  exact and_congr_right fun _ => ⟨fun later => later positive,fun fits _ => fits⟩

def TextFits (guest : Guest) (host : Host) (ptr : Int32) (len : UInt32) (rest : String → Prop) : Prop :=
  Fits ptr len.toNat host.memory.size ∧
    ∀ text, guest.fromUtf8 (host.memory.load ptr.toInt len.toNat) = some text → rest text

def Host.bytes (host : Host) (ptr : Int32) (len : UInt32) : List UInt8 := host.memory.load ptr.toInt len.toNat

def InBounds (guest : Guest) (host : Host) : Import → Prop
  | .getArgs lenOut => guest.allocExport = true → guest.memoryExport = true → guest.args ≠ [] → ∀ after value,
      guest.allocBuffer host (Int32.ofNat guest.args.length) = some (after,value) →
        Fits value.toInt32 guest.args.length after.memory.size ∧ Fits lenOut 8 after.memory.size
  | .getUnixTime => True
  | .setResult bufPtr bufLen => guest.memoryExport = true → host.result = none → Fits bufPtr bufLen.toNat host.memory.size
  | .getRandomValue bufPtr bufLen => guest.memoryExport = true → Fits bufPtr bufLen.toNat host.memory.size
  | .functionCall funcNamePtr funcNameLen argDataPtr argDataLen lenOut => guest.memoryExport = true →
      TextFits guest host funcNamePtr funcNameLen fun funcName => Fits argDataPtr argDataLen.toNat host.memory.size ∧
        ∀ data, guest.post guest.addr ("/run/" ++ funcName) (host.bytes argDataPtr argDataLen) = some (.ok data) →
          ResultFits guest host (.ok data) lenOut
  | .httpPost addrPtr addrLen pathPtr pathLen bodyDataPtr bodyDataLen lenOut => guest.memoryExport = true →
      TextFits guest host addrPtr addrLen fun addr => TextFits guest host pathPtr pathLen fun path =>
        Fits bodyDataPtr bodyDataLen.toNat host.memory.size ∧
          ∀ result, guest.post addr path (host.bytes bodyDataPtr bodyDataLen) = some result →
            ResultFits guest host result lenOut
  | .httpGet addrPtr addrLen pathPtr pathLen lenOut => guest.memoryExport = true →
      TextFits guest host addrPtr addrLen fun addr => TextFits guest host pathPtr pathLen fun path =>
        ∀ result, guest.get addr path = some result → ResultFits guest host result lenOut
  | .getConfigValue keyPtr keyLen lenOut => guest.memoryExport = true →
      TextFits guest host keyPtr keyLen fun key => ResultFits guest host (configResult guest key) lenOut
  | .logInfo ptr len | .logDebug ptr len | .logError ptr len | .logFatal ptr len =>
      guest.memoryExport = true → Fits ptr len.toNat host.memory.size

theorem logProgram_always (title : String) (guest : Guest) (host : Host) (ptr : Int32) (len : UInt32) :
    Always Access.InGuest (logProgram title guest ptr len) host ↔
      (guest.memoryExport = true → Fits ptr len.toNat host.memory.size) := by
  unfold logProgram
  rw [needMemory_bind]
  refine forall_congr' fun _ => ?_
  rw [getStr_bind]
  refine ⟨fun both => both.1,fun fits => ⟨fits,?_⟩⟩
  intro text _
  rw [always_change_bind,always_pure]
  trivial

theorem getArgs_always (guest : Guest) (host : Host) (lenOut : Int32) :
    Always Access.InGuest (getArgs guest lenOut) host ↔ InBounds guest host (.getArgs lenOut) := by
  unfold getArgs InBounds
  rw [needAlloc_bind]
  refine forall_congr' fun _ => ?_
  rw [needMemory_bind]
  refine forall_congr' fun _ => ?_
  split
  · rename_i empty
    exact iff_of_true (always_silent rfl) fun some => absurd empty some
  · rename_i some
    rw [allocBuffer_bind]
    constructor
    · intro all _ after value returned
      obtain ⟨fits,later⟩ := written_always.mp (all after value returned)
      refine ⟨fits,later ?_⟩
      rcases fits with none | ⟨positive,_⟩
      · exact absurd (List.eq_nil_of_length_eq_zero none) some
      · exact positive
    · intro all after value returned
      obtain ⟨fits,length⟩ := all some after value returned
      exact written_always.mpr ⟨fits,fun _ => length⟩

theorem functionCall_always (guest : Guest) (host : Host) (namePtr : Int32) (nameLen : UInt32) (argPtr : Int32)
    (argLen : UInt32) (lenOut : Int32) :
    Always Access.InGuest (functionCall guest namePtr nameLen argPtr argLen lenOut) host ↔
      InBounds guest host (.functionCall namePtr nameLen argPtr argLen lenOut) := by
  unfold functionCall InBounds TextFits
  rw [needMemory_bind]
  refine forall_congr' fun _ => ?_
  rw [getStr_bind]
  refine and_congr_right fun _ => forall_congr' fun name => forall_congr' fun _ => ?_
  rw [getSlice_bind]
  refine and_congr_right fun _ => ?_
  rw [always_demand_bind]
  constructor
  · intro all data returned
    exact (returnResult_always guest host (.ok data) lenOut).mp (all (.ok data) returned)
  · intro all response returned
    cases response with
    | ok data => exact (returnResult_always guest host (.ok data) lenOut).mpr (all data returned)
    | error err => exact always_silent rfl

theorem httpPost_always (guest : Guest) (host : Host) (addrPtr : Int32) (addrLen : UInt32) (pathPtr : Int32)
    (pathLen : UInt32) (bodyPtr : Int32) (bodyLen : UInt32) (lenOut : Int32) :
    Always Access.InGuest (httpPost guest addrPtr addrLen pathPtr pathLen bodyPtr bodyLen lenOut) host ↔
      InBounds guest host (.httpPost addrPtr addrLen pathPtr pathLen bodyPtr bodyLen lenOut) := by
  unfold httpPost InBounds TextFits
  rw [needMemory_bind]
  refine forall_congr' fun _ => ?_
  rw [getStr_bind]
  refine and_congr_right fun _ => forall_congr' fun addr => forall_congr' fun _ => ?_
  rw [getStr_bind]
  refine and_congr_right fun _ => forall_congr' fun path => forall_congr' fun _ => ?_
  rw [getSlice_bind]
  refine and_congr_right fun _ => ?_
  rw [always_demand_bind]
  exact forall_congr' fun result => forall_congr' fun _ => returnResult_always guest host result lenOut

theorem httpGet_always (guest : Guest) (host : Host) (addrPtr : Int32) (addrLen : UInt32) (pathPtr : Int32)
    (pathLen : UInt32) (lenOut : Int32) :
    Always Access.InGuest (httpGet guest addrPtr addrLen pathPtr pathLen lenOut) host ↔
      InBounds guest host (.httpGet addrPtr addrLen pathPtr pathLen lenOut) := by
  unfold httpGet InBounds TextFits
  rw [needMemory_bind]
  refine forall_congr' fun _ => ?_
  rw [getStr_bind]
  refine and_congr_right fun _ => forall_congr' fun addr => forall_congr' fun _ => ?_
  rw [getStr_bind]
  refine and_congr_right fun _ => forall_congr' fun path => forall_congr' fun _ => ?_
  rw [always_demand_bind]
  exact forall_congr' fun result => forall_congr' fun _ => returnResult_always guest host result lenOut

theorem getConfigValue_always (guest : Guest) (host : Host) (keyPtr : Int32) (keyLen : UInt32) (lenOut : Int32) :
    Always Access.InGuest (getConfigValue guest keyPtr keyLen lenOut) host ↔
      InBounds guest host (.getConfigValue keyPtr keyLen lenOut) := by
  unfold getConfigValue InBounds TextFits
  rw [needMemory_bind]
  refine forall_congr' fun _ => ?_
  rw [getStr_bind]
  exact and_congr_right fun _ => forall_congr' fun key => forall_congr' fun _ => returnResult_always guest host _ lenOut

theorem setResult_always (guest : Guest) (host : Host) (bufPtr : Int32) (bufLen : UInt32) :
    Always Access.InGuest (setResult guest bufPtr bufLen) host ↔ InBounds guest host (.setResult bufPtr bufLen) := by
  unfold setResult InBounds
  rw [needMemory_bind]
  refine forall_congr' fun _ => ?_
  rw [always_ask_bind,always_require_bind]
  refine forall_congr' fun _ => ?_
  rw [getSlice_bind,always_change_bind,always_pure,and_true]

theorem getRandomValue_always (guest : Guest) (host : Host) (bufPtr : Int32) (bufLen : UInt32) :
    Always Access.InGuest (getRandomValue guest bufPtr bufLen) host ↔
      InBounds guest host (.getRandomValue bufPtr bufLen) := by
  unfold getRandomValue InBounds
  rw [needMemory_bind]
  refine forall_congr' fun _ => ?_
  rw [getSliceMut_bind,always_pure,and_true]

theorem host_stays_in_guest (guest : Guest) (host : Host) (call : Import) :
    Always Access.InGuest (perform guest call) host ↔ InBounds guest host call := by
  cases call with
  | getArgs lenOut => exact getArgs_always guest host lenOut
  | getUnixTime => exact iff_of_true (always_silent rfl) trivial
  | setResult bufPtr bufLen => exact setResult_always guest host bufPtr bufLen
  | getRandomValue bufPtr bufLen => exact getRandomValue_always guest host bufPtr bufLen
  | functionCall namePtr nameLen argPtr argLen lenOut =>
      exact functionCall_always guest host namePtr nameLen argPtr argLen lenOut
  | httpPost addrPtr addrLen pathPtr pathLen bodyPtr bodyLen lenOut =>
      exact httpPost_always guest host addrPtr addrLen pathPtr pathLen bodyPtr bodyLen lenOut
  | httpGet addrPtr addrLen pathPtr pathLen lenOut =>
      exact httpGet_always guest host addrPtr addrLen pathPtr pathLen lenOut
  | getConfigValue keyPtr keyLen lenOut => exact getConfigValue_always guest host keyPtr keyLen lenOut
  | logInfo ptr len => exact logProgram_always "Program: " guest host ptr len
  | logDebug ptr len => exact logProgram_always "Program: " guest host ptr len
  | logError ptr len => exact logProgram_always "Program has error: " guest host ptr len
  | logFatal ptr len => exact logProgram_always "Program has fatal error: " guest host ptr len

def smallHost : Host := ⟨⟨16,fun _ => 0⟩,none,[]⟩

def hostile : Guest where
  args := List.replicate 8 0
  configValues := fun _ => none
  addr := "127.0.0.1:5000"
  memoryExport := true
  allocExport := true
  allocBuffer := fun host _ => some (host,-8)
  fromUtf8 := fun _ => some ""
  post := fun _ _ _ => none
  get := fun _ _ => none
  serializeResult := fun _ => []
  serializeString := fun _ => []
  randomBytes := fun len => List.replicate len 0
  unixTime := 0

-- set_result reads before the memory, log_info after it, and get_args writes
-- before it and then finds that the allocation has failed.
theorem host_leaves_guest :
    ¬Always Access.InGuest (perform hostile (.setResult (-8) 8)) smallHost ∧
      ¬Always Access.InGuest (perform hostile (.logInfo 0 32)) smallHost ∧
      ¬Always Access.InGuest (perform hostile (.getArgs 0)) smallHost ∧
      (perform hostile (.getArgs 0) smallHost).result = .error "failed to allocate" := by
  have before : ¬Access.InGuest ⟨-8,8,16⟩ := by simp [Access.InGuest]
  have after : ¬Access.InGuest ⟨0,32,16⟩ := by simp [Access.InGuest]
  refine ⟨?_,?_,?_,rfl⟩
  · exact fun all => before (all _ (List.mem_singleton.mpr rfl))
  · exact fun all => after (all _ (List.mem_singleton.mpr rfl))
  · exact fun all => before (all _ (List.mem_singleton.mpr rfl))

end OpenLambda.Wasm
