import Mathlib.Data.List.Basic

namespace Foundation.Frames

def span : Nat → Nat
  | 0 => 1
  | n+1 => 256 * span n

def digits : Nat → Nat → List UInt8
  | 0,_ => []
  | n+1,v => UInt8.ofNat (v % 256) :: digits n (v / 256)

def value : List UInt8 → Nat
  | [] => 0
  | byte :: rest => byte.toNat + 256 * value rest

theorem digits_length (n v : Nat) : (digits n v).length = n := by
  induction n generalizing v with
  | zero => rfl
  | succ n ih => rw [digits,List.length_cons,ih]

theorem value_digits (small : v < span n) : value (digits n v) = v := by
  induction n generalizing v with
  | zero =>
      have zero : v = 0 := Nat.lt_one_iff.mp small
      rw [zero]
      rfl
  | succ n ih =>
      have less : v / 256 < span n := Nat.div_lt_of_lt_mul small
      have byte : (UInt8.ofNat (v % 256)).toNat = v % 256 := by simp
      rw [digits,value,byte,ih less]
      exact Nat.mod_add_div v 256

-- Four bytes of length, the most significant one first, before each payload.
def header (length : Nat) : List UInt8 := (digits 4 length).reverse

def frame (payload : List UInt8) : List UInt8 := header payload.length ++ payload

theorem header_length (length : Nat) : (header length).length = 4 := by
  rw [header,List.length_reverse,digits_length]

theorem value_header (small : length < span 4) : value (header length).reverse = length := by
  rw [header,List.reverse_reverse,value_digits small]

theorem header_inj (one : first < span 4) (other : second < span 4) (same : header first = header second) :
    first = second := by
  rw [← value_header one,← value_header other,same]

theorem frame_ne_nil (payload : List UInt8) : frame payload ≠ [] := by
  intro empty
  have none := congrArg List.length empty
  rw [frame,List.length_append,header_length,List.length_nil] at none
  omega

inductive Decoded (σ : Type) where
  | more (state : σ) (buffer : List UInt8)
  | frame (payload : List UInt8) (state : σ) (buffer : List UInt8)
  | failed

structure Codec where
  State : Type
  start : State
  encode : List UInt8 → Option (List UInt8)
  decode : State → List UInt8 → Decoded State

-- `taken` is what the decoder has taken off the buffer of a frame that is not
-- complete: nothing, or its header.
structure LengthDelimited (codec : Codec) (limit : Nat) (taken : codec.State → List UInt8) : Prop where
  start : taken codec.start = []
  encoded : ∀ payload, payload.length ≤ limit → codec.encode payload = some (frame payload)
  complete : ∀ state buffer payload rest, payload.length ≤ limit → taken state ++ buffer = frame payload ++ rest →
    ∃ next, codec.decode state buffer = .frame payload next rest ∧ taken next = []
  partway : ∀ state buffer payload missing, payload.length ≤ limit → missing ≠ [] →
    taken state ++ buffer ++ missing = frame payload →
    ∃ next left, codec.decode state buffer = .more next left ∧ taken next ++ left = taken state ++ buffer

section Delivery
variable {codec : Codec} {limit : Nat} {taken : codec.State → List UInt8}

def InFlight (taken : codec.State → List UInt8) (state : codec.State) (buffer channel rest payload : List UInt8) :
    Prop :=
  taken state ++ buffer ++ channel ++ rest = frame payload

theorem write_inFlight (flight : InFlight taken state buffer channel rest payload) (n : Nat) :
    InFlight taken state buffer (channel ++ rest.take n) (rest.drop n) payload := by
  unfold InFlight at flight ⊢
  rw [← flight,List.append_assoc _ _ (rest.drop n),List.append_assoc channel,List.take_append_drop,
    List.append_assoc _ channel rest]

theorem read_inFlight (flight : InFlight taken state buffer channel rest payload) (n : Nat) :
    InFlight taken state (buffer ++ channel.take n) (channel.drop n) rest payload := by
  unfold InFlight at flight ⊢
  rw [← flight,← List.append_assoc,List.append_assoc _ (channel.take n) (channel.drop n),List.take_append_drop]

theorem decode_inFlight (laws : LengthDelimited codec limit taken) (fits : payload.length ≤ limit)
    (flight : InFlight taken state buffer channel rest payload) :
    (∃ next left, codec.decode state buffer = .more next left ∧ InFlight taken next left channel rest payload ∧
        channel ++ rest ≠ []) ∨
      ∃ next, codec.decode state buffer = .frame payload next [] ∧ taken next = [] ∧ channel = [] ∧ rest = [] := by
  unfold InFlight at flight
  by_cases missing : channel ++ rest = []
  · obtain ⟨empty,written⟩ := List.append_eq_nil_iff.mp missing
    subst channel rest
    have whole : taken state ++ buffer = frame payload ++ [] := by
      simpa using flight
    obtain ⟨next,decoded,nothing⟩ := laws.complete state buffer payload [] fits whole
    exact .inr ⟨next,decoded,nothing,rfl,rfl⟩
  · rw [List.append_assoc] at flight
    obtain ⟨next,left,decoded,same⟩ := laws.partway state buffer payload _ fits missing flight
    refine .inl ⟨next,left,decoded,?_,missing⟩
    unfold InFlight
    rw [same,List.append_assoc,flight]

theorem decode_nothing (laws : LengthDelimited codec limit taken) (nothing : taken state ++ buffer = []) :
    ∃ next left, codec.decode state buffer = .more next left ∧ taken next ++ left = [] := by
  have part : taken state ++ buffer ++ frame [] = frame [] := by
    rw [nothing]
    rfl
  obtain ⟨next,left,decoded,same⟩ := laws.partway state buffer [] _ (Nat.zero_le _) (frame_ne_nil _) part
  exact ⟨next,left,decoded,same.trans nothing⟩

end Delivery

inductive DecodeState (limit : Nat) where
  | head
  | data (n : Nat) (fits : n ≤ limit)

def decodeData (n : Nat) (fits : n ≤ limit) (buffer : List UInt8) : Decoded (DecodeState limit) :=
  if buffer.length < n then .more (.data n fits) buffer else .frame (buffer.take n) .head (buffer.drop n)

def decodeHead (limit : Nat) (buffer : List UInt8) : Decoded (DecodeState limit) :=
  if buffer.length < 4 then .more .head buffer
  else if fits : value (buffer.take 4).reverse ≤ limit then decodeData _ fits (buffer.drop 4)
  else .failed

def lengthDelimited (limit : Nat) : Codec where
  State := DecodeState limit
  start := .head
  encode := fun payload => if payload.length ≤ limit then some (frame payload) else none
  decode
    | .head,buffer => decodeHead limit buffer
    | .data n fits,buffer => decodeData n fits buffer

def DecodeState.taken : DecodeState limit → List UInt8
  | .head => []
  | .data n _ => header n

theorem decodeData_complete (fits : n ≤ limit) (length : payload.length = n) (rest : List UInt8) :
    decodeData n fits (payload ++ rest) = .frame payload .head rest := by
  have enough : ¬(payload ++ rest).length < n := by
    rw [List.length_append]
    omega
  subst n
  rw [decodeData,if_neg enough,List.take_left,List.drop_left]

theorem decodeHead_long (small : limit < span 4) (fits : n ≤ limit) (rest : List UInt8) :
    decodeHead limit (header n ++ rest) = decodeData n fits rest := by
  have long : ¬(header n ++ rest).length < 4 := by
    rw [List.length_append,header_length]
    omega
  have first : value ((header n ++ rest).take 4).reverse = n := by
    rw [List.take_left' (header_length n),value_header (Nat.lt_of_le_of_lt fits small)]
  unfold decodeHead
  rw [if_neg long,dif_pos (by rw [first]; exact fits),List.drop_left' (header_length n)]
  simp only [first]

theorem header_append_inj (small : limit < span 4) (one : first ≤ limit) (other : second ≤ limit)
    (same : header first ++ left = header second ++ right) : first = second ∧ left = right := by
  obtain ⟨head,tail⟩ := List.append_inj same (by rw [header_length,header_length])
  exact ⟨header_inj (Nat.lt_of_le_of_lt one small) (Nat.lt_of_le_of_lt other small) head,tail⟩

theorem decodeHead_partway (small : limit < span 4) (fits : payload.length ≤ limit) (missing : later ≠ [])
    (part : buffer ++ later = frame payload) :
    ∃ next left, decodeHead limit buffer = .more next left ∧ next.taken ++ left = buffer := by
  by_cases short : buffer.length < 4
  · exact ⟨.head,buffer,if_pos short,rfl⟩
  · have head : header payload.length <+: buffer := by
      refine List.prefix_of_prefix_length_le (List.prefix_append _ payload) ⟨later,part⟩ ?_
      rw [header_length]
      exact Nat.le_of_not_lt short
    obtain ⟨rest,rfl⟩ := head
    have body : rest ++ later = payload := by
      rw [frame,List.append_assoc] at part
      exact List.append_cancel_left part
    have less : rest.length < payload.length := by
      rw [← body,List.length_append]
      exact Nat.lt_add_of_pos_right (List.length_pos_iff.mpr missing)
    refine ⟨.data payload.length fits,rest,?_,rfl⟩
    rw [decodeHead_long small fits]
    exact if_pos less

theorem lengthDelimited_laws (small : limit < span 4) :
    LengthDelimited (lengthDelimited limit) limit DecodeState.taken where
  start := rfl
  encoded := fun payload fits => if_pos fits
  complete := by
    intro state buffer payload rest fits whole
    rw [frame,List.append_assoc] at whole
    cases state with
    | head =>
        refine ⟨.head,?_,rfl⟩
        change decodeHead limit buffer = _
        rw [show buffer = _ from whole,decodeHead_long small fits]
        exact decodeData_complete fits rfl rest
    | data n known =>
        obtain ⟨rfl,rfl⟩ := header_append_inj small known fits whole
        exact ⟨.head,decodeData_complete known rfl rest,rfl⟩
  partway := by
    intro state buffer payload later fits missing part
    cases state with
    | head => exact decodeHead_partway small fits missing part
    | data n known =>
        rw [List.append_assoc] at part
        obtain ⟨rfl,rfl⟩ := header_append_inj small known fits part
        refine ⟨.data _ known,buffer,if_pos ?_,rfl⟩
        rw [List.length_append]
        exact Nat.lt_add_of_pos_right (List.length_pos_iff.mpr missing)

end Foundation.Frames
