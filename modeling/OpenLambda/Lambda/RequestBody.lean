import Mathlib.Algebra.GroupWithZero.Nat
import Mathlib.Data.List.Basic
import Mathlib.Data.List.Infix

namespace OpenLambda.RequestBody

abbrev Bytes := List UInt8

-- The keys are in their canonical form.
abbrev Header := List (String × String)

inductive Framing where
  | contentLength
  | chunked
  deriving DecidableEq, Repr

-- The request as net/http's server hands it over; `body` is what its Body yields.
-- With a Content-Length of 0 the Body is http.NoBody.
structure ServerRequest where
  method : String
  header : Header
  contentLength : Int
  body : Bytes
  deriving DecidableEq, Repr

def received (method : String) (header : Header) (framing : Framing) (body : Bytes) : ServerRequest where
  method := method
  header := header
  contentLength := match framing with
    | .contentLength => body.length
    | .chunked => -1
  body := body

structure ClientRequest where
  method : String
  header : Header
  contentLength : Int
  body : Bytes
  deriving DecidableEq, Repr

def newRequest (method : String) (body : Bytes) : ClientRequest := ⟨method,[],0,body⟩

def forwarded (r : ServerRequest) : ClientRequest :=
  let httpReq := newRequest r.method r.body
  {httpReq with
    header := r.header.foldl (fun header entry => header ++ [entry]) httpReq.header
    contentLength := r.contentLength}

-- The headers that net/http's client does not take from Request.Header.
def reqWriteExcludeHeader : List String := ["Host","User-Agent","Content-Length","Transfer-Encoding","Trailer"]

structure Wire where
  header : Header
  payload : Bytes
  deriving DecidableEq, Repr

def ascii (text : List Char) : Bytes := text.map fun c => c.val.toUInt8

def crlf : Bytes := [0x0d,0x0a]

def cutting : List Nat → Bytes → List Bytes
  | [],body => [body]
  | length :: rest,body => body.take length :: cutting rest (body.drop length)

def chunks (pieces : List Bytes) : Bytes :=
  (pieces.filter (· ≠ [])).flatMap (fun piece => ascii (Nat.toDigits 16 piece.length) ++ crlf ++ piece ++ crlf) ++
    ascii ['0'] ++ crlf ++ crlf

-- Without a body some methods have no Content-Length.
def shouldSendContentLength (method : String) (length : Int) : Bool :=
  decide (0 < length) || method == "POST" || method == "PUT" || method == "PATCH"

def framingHeader (method : String) (contentLength : Int) : Header :=
  if contentLength < 0 then [("Transfer-Encoding","chunked")]
  else if shouldSendContentLength method contentLength then [("Content-Length",contentLength.toNat.repr)]
  else []

def written (req : ClientRequest) (pieces : List Nat) : Wire where
  header := framingHeader req.method req.contentLength ++
    req.header.filter fun entry => entry.1 ∉ reqWriteExcludeHeader
  payload := if req.contentLength < 0 then chunks (cutting pieces req.body) else req.body

structure RequestParser where
  remaining : Int
  rfile : Bytes
  deriving DecidableEq, Repr

def rfileRead (rfile : Bytes) (size : Int) : Bytes := if size < 0 then rfile else rfile.take size.toNat

def RequestParser.read (parser : RequestParser) (size : Int) : Bytes × RequestParser :=
  let size := if size < 0 then parser.remaining else size
  let size := min size parser.remaining
  let data := rfileRead parser.rfile size
  (data,⟨parser.remaining - data.length,parser.rfile.drop data.length⟩)

def RequestParser.reads (parser : RequestParser) : List Int → Bytes
  | [] => []
  | size :: rest => (parser.read size).1 ++ (parser.read size).2.reads rest

def counting (rfile : Bytes) : RequestParser := ⟨rfile.length,rfile⟩

def asked (length : Nat) (size : Int) : Nat := if size < 0 then length else min size.toNat length

end OpenLambda.RequestBody
