import OpenLambda.Foundation.Frames
import OpenLambda.Foundation.Runs

namespace OpenLambda.Proxy
open Foundation.Frames Foundation.Runs

structure FuncCallData where
  fnName : String
  args : List UInt8
  deriving DecidableEq, Repr

abbrev CallResult := Except String (List UInt8)

inductive ProxyMessage where
  | funcCallRequest (data : FuncCallData)
  | funcCallResult (result : CallResult)

inductive HttpOutcome where
  | notSent (err : String)
  | body (bytes : List UInt8)
  | noBody (err : String)
  | status (code : String)
  deriving DecidableEq, Repr

def functionCall (http : String → List UInt8 → HttpOutcome) (funcName : String) (args : List UInt8) : CallResult :=
  match http ("http://localhost:5000/run/" ++ funcName) args with
  | .notSent err => .error ("Failed to send call request: " ++ err)
  | .body bytes => .ok bytes
  | .noBody err => .error ("Failed to process call result: " ++ err)
  | .status code => .error ("Call Request failed with error code: " ++ code)

-- What the two sides are given: the libraries, the calls that are made on the
-- client's connection, what the worker does with each, and how much a socket
-- holds that is not read yet.
structure Link where
  codec : Codec
  serialize : ProxyMessage → Option (List UInt8)
  deserialize : List UInt8 → Option ProxyMessage
  calls : List FuncCallData
  http : Nat → String → List UInt8 → HttpOutcome
  capacity : Nat
  positive : 0 < capacity

def Link.message (link : Link) (message : ProxyMessage) : Option (List UInt8) :=
  (link.serialize message).bind link.codec.encode

-- func_call: before a call, in the write_all of send_message, in the loop of
-- receive_message with its buffer.
inductive Client where
  | idle
  | sending (rest : List UInt8)
  | receiving (buffer : List UInt8)
  | closed
  | panicked
  deriving DecidableEq, Repr

-- handle_connection: in reader.next, which decodes before it reads on, in
-- function_call, in writer.send, and over.
inductive Server where
  | reading
  | decoding
  | calling (data : FuncCallData)
  | writing (rest : List UInt8)
  | ended
  deriving DecidableEq, Repr

-- Each side has its codec. `buffer` is that of the FramedRead. `lost` is history:
-- what receive_message drops with its buffer; so are `received` and `produced`.
structure Connection (codec : Codec) where
  client : Client
  clientCodec : codec.State
  issued : Nat
  returned : List CallResult
  lost : List UInt8
  toServer : List UInt8
  toClient : List UInt8
  server : Server
  serverCodec : codec.State
  buffer : List UInt8
  received : List FuncCallData
  produced : List CallResult

def init (link : Link) : Connection link.codec where
  client := .idle
  clientCodec := link.codec.start
  issued := 0
  returned := []
  lost := []
  toServer := []
  toClient := []
  server := .reading
  serverCodec := link.codec.start
  buffer := []
  received := []
  produced := []

def Client.gone : Client → Bool
  | .closed | .panicked => true
  | _ => false

def Server.gone : Server → Bool
  | .ended => true
  | _ => false

def Client.send (rest : List UInt8) : Client := if rest = [] then .receiving [] else .sending rest

def Server.send (rest : List UInt8) : Server := if rest = [] then .decoding else .writing rest

section Steps
variable {link : Link}

def Connection.call (s : Connection link.codec) : Option (Connection link.codec) :=
  match s.client,link.calls[s.issued]? with
  | .idle,some data => match link.message (.funcCallRequest data) with
      | some bytes => some {s with client := .send bytes, issued := s.issued + 1}
      | none => some {s with client := .panicked}
  | _,_ => none

def Connection.clientWrite (s : Connection link.codec) (n : Nat) : Option (Connection link.codec) :=
  match s.client with
  | .sending rest =>
      if s.server.gone then some {s with client := .panicked}
      else if 0 < n ∧ n ≤ rest.length ∧ s.toServer.length + n ≤ link.capacity then
        some {s with client := .send (rest.drop n), toServer := s.toServer ++ rest.take n}
      else none
  | _ => none

-- The rest of the buffer goes with the return.
def Connection.decode (s : Connection link.codec) (buffer : List UInt8) : Connection link.codec :=
  match link.codec.decode s.clientCodec buffer with
  | .more state left => {s with client := .receiving left, clientCodec := state}
  | .frame payload state left => match link.deserialize payload with
      | some (.funcCallResult result) =>
          {s with client := .idle, clientCodec := state, lost := s.lost ++ left, returned := s.returned ++ [result]}
      | some (.funcCallRequest _) | none => {s with client := .panicked}
  | .failed => {s with client := .panicked}

def Connection.clientRead (s : Connection link.codec) (n : Nat) : Option (Connection link.codec) :=
  match s.client with
  | .receiving buffer =>
      if 0 < n ∧ n ≤ 1024 ∧ n ≤ s.toClient.length then
        some ({s with toClient := s.toClient.drop n}.decode (buffer ++ s.toClient.take n))
      else none
  | _ => none

def Connection.clientEnd (s : Connection link.codec) : Option (Connection link.codec) :=
  match s.client with
  | .receiving _ => if s.toClient = [] ∧ s.server.gone then some {s with client := .panicked} else none
  | _ => none

def Connection.hangUp (s : Connection link.codec) : Option (Connection link.codec) :=
  match s.client,link.calls[s.issued]? with
  | .idle,none => some {s with client := .closed}
  | _,_ => none

def Connection.serverRead (s : Connection link.codec) (n : Nat) : Option (Connection link.codec) :=
  match s.server with
  | .reading =>
      if 0 < n ∧ n ≤ s.toServer.length then
        some {s with
          server := .decoding
          buffer := s.buffer ++ s.toServer.take n
          toServer := s.toServer.drop n}
      else none
  | _ => none

def Connection.serverDecode (s : Connection link.codec) : Option (Connection link.codec) :=
  match s.server with
  | .decoding => match link.codec.decode s.serverCodec s.buffer with
      | .more state left => some {s with server := .reading, serverCodec := state, buffer := left}
      | .frame payload state left => match link.deserialize payload with
          | some (.funcCallRequest data) =>
              some {s with
                server := .calling data
                serverCodec := state
                buffer := left
                received := s.received ++ [data]}
          | some (.funcCallResult _) | none => some {s with server := .ended}
      | .failed => some {s with server := .ended}
  | _ => none

def Connection.respond (s : Connection link.codec) : Option (Connection link.codec) :=
  match s.server with
  | .calling data =>
      let result := functionCall (link.http s.produced.length) data.fnName data.args
      match link.message (.funcCallResult result) with
      | some bytes => some {s with server := .send bytes, produced := s.produced ++ [result]}
      | none => some {s with server := .ended, produced := s.produced ++ [result]}
  | _ => none

def Connection.serverWrite (s : Connection link.codec) (n : Nat) : Option (Connection link.codec) :=
  match s.server with
  | .writing rest =>
      if s.client.gone then some {s with server := .ended}
      else if 0 < n ∧ n ≤ rest.length ∧ s.toClient.length + n ≤ link.capacity then
        some {s with server := .send (rest.drop n), toClient := s.toClient ++ rest.take n}
      else none
  | _ => none

-- The end of the stream; what is left in the buffer is an error that ends the
-- loop as well.
def Connection.serverEnd (s : Connection link.codec) : Option (Connection link.codec) :=
  match s.server with
  | .reading => if s.toServer = [] ∧ s.client.gone then some {s with server := .ended} else none
  | _ => none

end Steps

inductive Action where
  | call
  | clientWrite (n : Nat)
  | clientRead (n : Nat)
  | clientEnd
  | hangUp
  | serverRead (n : Nat)
  | serverDecode
  | respond
  | serverWrite (n : Nat)
  | serverEnd
  deriving DecidableEq, Repr

def step (link : Link) (s : Connection link.codec) : Action → Option (Connection link.codec)
  | .call => s.call
  | .clientWrite n => s.clientWrite n
  | .clientRead n => s.clientRead n
  | .clientEnd => s.clientEnd
  | .hangUp => s.hangUp
  | .serverRead n => s.serverRead n
  | .serverDecode => s.serverDecode
  | .respond => s.respond
  | .serverWrite n => s.serverWrite n
  | .serverEnd => s.serverEnd

end OpenLambda.Proxy
