import OpenLambda.Native.Runtime

namespace OpenLambda.Native
open Foundation.Runs

def Op.toOut : Op → Option (List UInt8)
  | .stdout bytes => some bytes
  | _ => none

def Op.toErr : Op → Option (List UInt8)
  | .stderr bytes => some bytes
  | _ => none

def takes (room : List (List UInt8) → List UInt8 → Bool) : List (List UInt8) → List (List UInt8) → Bool
  | _,[] => true
  | before,bytes :: rest => room before bytes && takes room (before ++ [bytes]) rest

def Stage.busy : Stage → Bool
  | .running _ _ _ _ => true
  | _ => false

def Pipes.returns (pipes : Pipes) (out err : List (List UInt8)) (op : Op) : Bool :=
  op.toOut.all (pipes.stdout out) && op.toErr.all (pipes.stderr err)

-- The steps of one request, with nobody who ends the server or the process.
def serving (pipes : Pipes) (s : Server) : Action → Option Server
  | .child => step pipes s .child
  | .reply opened => step pipes s (.reply opened)
  | _ => none

def Program.Fits (pipes : Pipes) (out err : List (List UInt8)) : Program → Prop
  | .ends ops _ => takes pipes.stdout out (ops.filterMap Op.toOut) = true ∧
      takes pipes.stderr err (ops.filterMap Op.toErr) = true
  | .endless _ => False

def Stage.Fits (pipes : Pipes) : Stage → Prop
  | .running _ ahead out err => ahead.Fits pipes out err
  | _ => True

def Program.left : Program → Nat
  | .ends ops _ => ops.length
  | .endless _ => 0

def Stage.left : Stage → Nat
  | .running _ ahead _ _ => ahead.left + 1
  | _ => 0

def asleep : Program := .endless fun _ => .other

def quiet : Program := .ends [.stdout [72],.stderr [33],.stdout [10]] (.code 0)

def begun (program : Program) : Server := newServer.request ⟨1,"POST",[]⟩ (some program)

end OpenLambda.Native
