import OpenLambda.Proxy.Connection

namespace OpenLambda.Proxy.Bincode
open Foundation.Frames

-- Sequences of bytes after their length, in eight bytes.
def putBytes (bytes : List UInt8) : Option (List UInt8) :=
  if bytes.length < span 8 then some (digits 8 bytes.length ++ bytes) else none

def getBytes (input : List UInt8) : Option (List UInt8 × List UInt8) :=
  let length := value (input.take 8)
  let rest := input.drop 8
  if rest.length < length then none else some (rest.take length,rest.drop length)

theorem getBytes_putBytes (put : putBytes bytes = some written) (rest : List UInt8) :
    getBytes (written ++ rest) = some (bytes,rest) := by
  unfold putBytes at put
  split at put
  · rename_i small
    cases put
    have head : value ((digits 8 bytes.length ++ bytes ++ rest).take 8) = bytes.length := by
      rw [List.append_assoc,List.take_left' (digits_length 8 _),value_digits small]
    have tail : (digits 8 bytes.length ++ bytes ++ rest).drop 8 = bytes ++ rest := by
      rw [List.append_assoc,List.drop_left' (digits_length 8 _)]
    unfold getBytes
    dsimp only
    rw [head,tail,if_neg,List.take_left,List.drop_left]
    rw [List.length_append]
    omega
  · cases put

def putString (text : String) : Option (List UInt8) := putBytes text.toByteArray.data.toList

def getString (input : List UInt8) : Option (String × List UInt8) :=
  (getBytes input).bind fun (bytes,rest) => (String.fromUTF8? ⟨bytes.toArray⟩).map fun text => (text,rest)

theorem getString_putString (put : putString text = some written) (rest : List UInt8) :
    getString (written ++ rest) = some (text,rest) := by
  unfold getString
  rw [getBytes_putBytes put rest]
  have back : String.fromUTF8? ⟨text.toByteArray.data.toList.toArray⟩ = some text := by
    rw [Array.toArray_toList]
    exact dif_pos text.isValidUTF8
  rw [Option.bind_some]
  dsimp only
  rw [back]
  rfl

def serialize : ProxyMessage → Option (List UInt8)
  | .funcCallRequest data => do
      let name ← putString data.fnName
      let args ← putBytes data.args
      some (digits 4 0 ++ (name ++ args))
  | .funcCallResult (.ok bytes) => do
      let body ← putBytes bytes
      some (digits 4 1 ++ (digits 4 0 ++ body))
  | .funcCallResult (.error err) => do
      let text ← putString err
      some (digits 4 1 ++ (digits 4 1 ++ text))

def getCall (input : List UInt8) : Option ProxyMessage := do
  let (fnName,rest) ← getString input
  let (args,_) ← getBytes rest
  some (.funcCallRequest ⟨fnName,args⟩)

def getResult (input : List UInt8) : Option ProxyMessage :=
  match value (input.take 4) with
  | 0 => (getBytes (input.drop 4)).map fun (bytes,_) => .funcCallResult (.ok bytes)
  | 1 => (getString (input.drop 4)).map fun (err,_) => .funcCallResult (.error err)
  | _ => none

-- Bytes after the message are not looked at.
def deserialize (input : List UInt8) : Option ProxyMessage :=
  match value (input.take 4) with
  | 0 => getCall (input.drop 4)
  | 1 => getResult (input.drop 4)
  | _ => none

theorem variant_head (variant : Nat) (small : variant < span 4) (rest : List UInt8) :
    value ((digits 4 variant ++ rest).take 4) = variant ∧ (digits 4 variant ++ rest).drop 4 = rest := by
  rw [List.take_left' (digits_length 4 _),List.drop_left' (digits_length 4 _),value_digits small]
  exact ⟨rfl,rfl⟩

theorem deserialize_serialize (message : ProxyMessage) (payload : List UInt8)
    (written : serialize message = some payload) : deserialize payload = some message := by
  have zero := variant_head 0 (by decide)
  have one := variant_head 1 (by decide)
  unfold deserialize
  cases message with
  | funcCallRequest data =>
      obtain ⟨name,putName,rest⟩ := Option.bind_eq_some_iff.mp written
      obtain ⟨args,putArgs,same⟩ := Option.bind_eq_some_iff.mp rest
      cases same
      have last := getBytes_putBytes putArgs []
      rw [List.append_nil] at last
      rw [(zero _).1,(zero _).2]
      simp [getCall,getString_putString putName,last]
  | funcCallResult result =>
      cases result with
      | ok bytes =>
          obtain ⟨body,put,same⟩ := Option.bind_eq_some_iff.mp written
          cases same
          have last := getBytes_putBytes put []
          rw [List.append_nil] at last
          rw [(one _).1,(one _).2]
          simp [getResult,(zero body).1,(zero body).2,last]
      | error err =>
          obtain ⟨text,put,same⟩ := Option.bind_eq_some_iff.mp written
          cases same
          have last := getString_putString put []
          rw [List.append_nil] at last
          rw [(one _).1,(one _).2]
          simp [getResult,(one text).1,(one text).2,last]

end OpenLambda.Proxy.Bincode
