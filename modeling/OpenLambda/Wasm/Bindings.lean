import OpenLambda.Foundation.Traces

namespace OpenLambda.Wasm
open Foundation.Traces

-- The address space around the base of the guest's memory. The guest owns the
-- first `size` bytes; all others belong to the host.
structure Memory where
  size : Nat
  byte : Int → UInt8

def Memory.load (memory : Memory) (offset : Int) (len : Nat) : List UInt8 :=
  (List.range len).map fun (i : Nat) => memory.byte (offset + i)

def Memory.store (memory : Memory) (offset : Int) (data : List UInt8) : Memory :=
  {memory with byte := fun i => if offset ≤ i then data.getD (i - offset).toNat (memory.byte i) else memory.byte i}

structure Host where
  memory : Memory
  result : Option (List UInt8)
  printed : List String

structure Access where
  offset : Int
  len : Nat
  size : Nat

def Access.InGuest (access : Access) : Prop :=
  access.len = 0 ∨ 0 ≤ access.offset ∧ access.offset + access.len ≤ access.size

abbrev CallResult := Except String (List UInt8)

-- The BindingsData of an instance, its guest code and the libraries. The guest's
-- internal_alloc_buffer may do anything, call the host again included, or trap. A
-- request panics when the client cannot connect or send it.
structure Guest where
  args : List UInt8
  configValues : String → Option String
  addr : String
  memoryExport : Bool
  allocExport : Bool
  allocBuffer : Host → Int32 → Option (Host × Int64)
  fromUtf8 : List UInt8 → Option String
  post : String → String → List UInt8 → Option CallResult
  get : String → String → Option CallResult
  serializeResult : CallResult → List UInt8
  serializeString : String → List UInt8
  randomBytes : Nat → List UInt8
  unixTime : UInt64

abbrev HostCall := Traced Host Access

def touch (offset : Int32) (len : Nat) : HostCall Unit := emit fun host => ⟨offset.toInt,len,host.memory.size⟩

def store (offset : Int32) (data : List UInt8) : HostCall Unit :=
  change fun host => {host with memory := host.memory.store offset.toInt data}

def getSlice (offset : Int32) (len : UInt32) : HostCall (List UInt8) := do
  touch offset len.toNat
  ask fun host => host.memory.load offset.toInt len.toNat

def getSliceMut (offset : Int32) (len : UInt32) (data : List UInt8) : HostCall Unit := do
  touch offset len.toNat
  store offset data

-- The offset is looked at after the first copy.
def fillSlice (offset : Int32) (data : List UInt8) : HostCall Unit := do
  touch offset data.length
  store offset data
  require (0 ≤ offset.toInt) "failed to allocate"
  touch offset data.length
  store offset data

def getStr (guest : Guest) (offset : Int32) (len : UInt32) : HostCall String := do
  touch offset len.toNat
  let bytes ← ask fun host => host.memory.load offset.toInt len.toNat
  demand (guest.fromUtf8 bytes) "called Result::unwrap() on an Err value: Utf8Error"

def bytesOf (value : UInt64) : List UInt8 := (List.range 8).map fun i => UInt8.ofNat (value.toNat >>> (8 * i))

def setU64 (offset : Int32) (value : UInt64) : HostCall Unit := do
  touch offset 8
  store offset (bytesOf value)

def needMemory (guest : Guest) : HostCall Unit := require (guest.memoryExport = true) "called Option::unwrap() on a None value"

def needAlloc (guest : Guest) : HostCall Unit := require (guest.allocExport = true) "Missing alloc export"

-- The guest runs; its i64 is cut to an i32.
def allocBuffer (guest : Guest) (size : Int32) : HostCall Int32 := do
  let host ← ask id
  let returned ← demand (guest.allocBuffer host size) "called Result::unwrap() on an Err value: Trap"
  change fun _ => returned.1
  pure returned.2.toInt32

def callAllocate (guest : Guest) (size : UInt32) : HostCall Int32 := do
  needMemory guest
  needAlloc guest
  let offset ← allocBuffer guest size.toInt32
  require (0 ≤ offset.toInt) "Failed to allocate"
  let dataSize ← ask fun host => host.memory.size
  require (offset.toInt + size.toNat ≤ dataSize) "Invalid pointer"
  pure offset

def returnResult (guest : Guest) (result : CallResult) (lenOut : Int32) : HostCall Int64 := do
  let resultData := guest.serializeResult result
  let offset ← callAllocate guest (UInt32.ofNat resultData.length)
  fillSlice offset resultData
  setU64 lenOut (UInt64.ofNat resultData.length)
  pure offset.toInt64

def getArgs (guest : Guest) (lenOut : Int32) : HostCall Int64 := do
  needAlloc guest
  needMemory guest
  if guest.args = [] then pure 0
  else do
    let offset ← allocBuffer guest (Int32.ofNat guest.args.length)
    fillSlice offset guest.args
    setU64 lenOut (UInt64.ofNat guest.args.length)
    pure offset.toInt64

def getUnixTime (guest : Guest) : HostCall Int64 := pure guest.unixTime.toInt64

def setResult (guest : Guest) (bufPtr : Int32) (bufLen : UInt32) : HostCall Int64 := do
  needMemory guest
  let result ← ask fun host => host.result
  require (result = none) "Result was already set"
  let bytes ← getSlice bufPtr bufLen
  change fun host => {host with result := some bytes}
  pure 0

def getRandomValue (guest : Guest) (bufPtr : Int32) (bufLen : UInt32) : HostCall Int64 := do
  needMemory guest
  getSliceMut bufPtr bufLen (guest.randomBytes bufLen.toNat)
  pure 0

def functionCall (guest : Guest) (funcNamePtr : Int32) (funcNameLen : UInt32) (argDataPtr : Int32) (argDataLen : UInt32)
    (lenOut : Int32) : HostCall Int64 := do
  needMemory guest
  let funcName ← getStr guest funcNamePtr funcNameLen
  let args ← getSlice argDataPtr argDataLen
  let response ← demand (guest.post guest.addr ("/run/" ++ funcName) args) "HTTP request"
  match response with
  | .ok data => returnResult guest (.ok data) lenOut
  | .error err => stop ("Internal call to " ++ guest.addr ++ " failed: " ++ err)

def httpPost (guest : Guest) (addrPtr : Int32) (addrLen : UInt32) (pathPtr : Int32) (pathLen : UInt32)
    (bodyDataPtr : Int32) (bodyDataLen : UInt32) (lenOut : Int32) : HostCall Int64 := do
  needMemory guest
  let addr ← getStr guest addrPtr addrLen
  let path ← getStr guest pathPtr pathLen
  let body ← getSlice bodyDataPtr bodyDataLen
  let result ← demand (guest.post addr path body) "HTTP request"
  returnResult guest result lenOut

def httpGet (guest : Guest) (addrPtr : Int32) (addrLen : UInt32) (pathPtr : Int32) (pathLen : UInt32) (lenOut : Int32) :
    HostCall Int64 := do
  needMemory guest
  let addr ← getStr guest addrPtr addrLen
  let path ← getStr guest pathPtr pathLen
  let result ← demand (guest.get addr path) "HTTP request"
  returnResult guest result lenOut

def configResult (guest : Guest) (key : String) : CallResult :=
  match guest.configValues key with
  | some value => .ok (guest.serializeString value)
  | none => .error "No such config value"

def getConfigValue (guest : Guest) (keyPtr : Int32) (keyLen : UInt32) (lenOut : Int32) : HostCall Int64 := do
  needMemory guest
  let key ← getStr guest keyPtr keyLen
  returnResult guest (configResult guest key) lenOut

def logProgram (title : String) (guest : Guest) (ptr : Int32) (len : UInt32) : HostCall Int64 := do
  needMemory guest
  let msg ← getStr guest ptr len
  change fun host => {host with printed := host.printed ++ [title ++ msg]}
  pure 0

def logInfo : Guest → Int32 → UInt32 → HostCall Int64 := logProgram "Program: "

def logDebug : Guest → Int32 → UInt32 → HostCall Int64 := logProgram "Program: "

def logError : Guest → Int32 → UInt32 → HostCall Int64 := logProgram "Program has error: "

def logFatal : Guest → Int32 → UInt32 → HostCall Int64 := logProgram "Program has fatal error: "

inductive Import where
  | getArgs (lenOut : Int32)
  | getUnixTime
  | setResult (bufPtr : Int32) (bufLen : UInt32)
  | getRandomValue (bufPtr : Int32) (bufLen : UInt32)
  | functionCall (funcNamePtr : Int32) (funcNameLen : UInt32) (argDataPtr : Int32) (argDataLen : UInt32) (lenOut : Int32)
  | httpPost (addrPtr : Int32) (addrLen : UInt32) (pathPtr : Int32) (pathLen : UInt32) (bodyDataPtr : Int32)
      (bodyDataLen : UInt32) (lenOut : Int32)
  | httpGet (addrPtr : Int32) (addrLen : UInt32) (pathPtr : Int32) (pathLen : UInt32) (lenOut : Int32)
  | getConfigValue (keyPtr : Int32) (keyLen : UInt32) (lenOut : Int32)
  | logInfo (ptr : Int32) (len : UInt32)
  | logDebug (ptr : Int32) (len : UInt32)
  | logError (ptr : Int32) (len : UInt32)
  | logFatal (ptr : Int32) (len : UInt32)

def perform (guest : Guest) : Import → HostCall Int64
  | .getArgs lenOut => getArgs guest lenOut
  | .getUnixTime => getUnixTime guest
  | .setResult bufPtr bufLen => setResult guest bufPtr bufLen
  | .getRandomValue bufPtr bufLen => getRandomValue guest bufPtr bufLen
  | .functionCall funcNamePtr funcNameLen argDataPtr argDataLen lenOut =>
      functionCall guest funcNamePtr funcNameLen argDataPtr argDataLen lenOut
  | .httpPost addrPtr addrLen pathPtr pathLen bodyDataPtr bodyDataLen lenOut =>
      httpPost guest addrPtr addrLen pathPtr pathLen bodyDataPtr bodyDataLen lenOut
  | .httpGet addrPtr addrLen pathPtr pathLen lenOut => httpGet guest addrPtr addrLen pathPtr pathLen lenOut
  | .getConfigValue keyPtr keyLen lenOut => getConfigValue guest keyPtr keyLen lenOut
  | .logInfo ptr len => logInfo guest ptr len
  | .logDebug ptr len => logDebug guest ptr len
  | .logError ptr len => logError guest ptr len
  | .logFatal ptr len => logFatal guest ptr len

end OpenLambda.Wasm
