import OpenLambda.Proxy.Bincode

namespace OpenLambda.Proxy
open Foundation.Frames Foundation.Runs

def Link.result (link : Link) (k : Nat) (data : FuncCallData) : CallResult :=
  functionCall (link.http k) data.fnName data.args

def Link.results (link : Link) : List CallResult := link.calls.mapIdx link.result

def Link.Fits (link : Link) (limit : Nat) (message : ProxyMessage) : Prop :=
  ∃ payload, link.serialize message = some payload ∧ payload.length ≤ limit

-- The libraries do as they say, and no message is too long.
structure Link.Sound (link : Link) (limit : Nat) (taken : link.codec.State → List UInt8) : Prop where
  codec : LengthDelimited link.codec limit taken
  bincode : ∀ message payload, link.serialize message = some payload → link.deserialize payload = some message
  requests : ∀ data, data ∈ link.calls → link.Fits limit (.funcCallRequest data)
  answers : ∀ result, result ∈ link.results → link.Fits limit (.funcCallResult result)

section Phases
variable {link : Link} {limit : Nat} {taken : link.codec.State → List UInt8} {s t : Connection link.codec}

def Connection.Counted (s : Connection link.codec) (issued received produced returned : Nat) : Prop :=
  s.issued = issued ∧ s.received = link.calls.take received ∧ s.produced = link.results.take produced ∧
    s.returned = link.results.take returned ∧ s.lost = []

structure Clear (channel kept : List UInt8) : Prop where
  channel : channel = []
  kept : kept = []

def Connection.Listening (s : Connection link.codec) : Prop := s.server = .decoding ∨ s.server = .reading

-- The two sides take turns: between calls, a request on its way, in
-- function_call, and a response on its way.
structure Connection.Idle (s : Connection link.codec) (taken : link.codec.State → List UInt8) (k : Nat) : Prop where
  bound : k ≤ link.calls.length
  counted : s.Counted k k k k
  client : s.client = .idle
  server : s.Listening
  toServer : Clear s.toServer (taken s.serverCodec ++ s.buffer)
  toClient : Clear s.toClient (taken s.clientCodec)

structure Connection.Requesting (s : Connection link.codec) (limit : Nat) (taken : link.codec.State → List UInt8) (k : Nat)
    (data : FuncCallData) (payload rest : List UInt8) : Prop where
  here : link.calls[k]? = some data
  bytes : link.serialize (.funcCallRequest data) = some payload
  fits : payload.length ≤ limit
  counted : s.Counted (k + 1) k k k
  client : s.client = .send rest
  server : s.server = .decoding ∨ s.server = .reading ∧ s.toServer ++ rest ≠ []
  toServer : InFlight taken s.serverCodec s.buffer s.toServer rest payload
  toClient : Clear s.toClient (taken s.clientCodec)

structure Connection.Calling (s : Connection link.codec) (taken : link.codec.State → List UInt8) (k : Nat)
    (data : FuncCallData) : Prop where
  here : link.calls[k]? = some data
  counted : s.Counted (k + 1) (k + 1) k k
  client : s.client = .receiving []
  server : s.server = .calling data
  toServer : Clear s.toServer (taken s.serverCodec ++ s.buffer)
  toClient : Clear s.toClient (taken s.clientCodec)

structure Connection.Responding (s : Connection link.codec) (limit : Nat) (taken : link.codec.State → List UInt8) (k : Nat)
    (data : FuncCallData) (payload rest buffer : List UInt8) : Prop where
  here : link.calls[k]? = some data
  bytes : link.serialize (.funcCallResult (link.result k data)) = some payload
  fits : payload.length ≤ limit
  counted : s.Counted (k + 1) (k + 1) (k + 1) k
  client : s.client = .receiving buffer
  server : s.server = .send rest ∨ rest = [] ∧ s.server = .reading
  missing : s.toClient ++ rest ≠ []
  toServer : Clear s.toServer (taken s.serverCodec ++ s.buffer)
  toClient : InFlight taken s.clientCodec buffer s.toClient rest payload

structure Connection.Closed (s : Connection link.codec) (taken : link.codec.State → List UInt8) : Prop where
  counted : s.Counted link.calls.length link.calls.length link.calls.length link.calls.length
  client : s.client = .closed
  server : s.Listening ∨ s.server = .ended
  toServer : Clear s.toServer (taken s.serverCodec ++ s.buffer)
  toClient : Clear s.toClient (taken s.clientCodec)

inductive Connection.Phase (s : Connection link.codec) (limit : Nat) (taken : link.codec.State → List UInt8) : Prop where
  | idle (phase : s.Idle taken k)
  | requesting (phase : s.Requesting limit taken k data payload rest)
  | calling (phase : s.Calling taken k data)
  | responding (phase : s.Responding limit taken k data payload rest kept)
  | closed (phase : s.Closed taken)

theorem init_phase (sound : link.Sound limit taken) : (init link).Phase limit taken :=
  .idle (k := 0) {
    bound := Nat.zero_le _
    counted := ⟨rfl,rfl,rfl,rfl,rfl⟩
    client := rfl
    server := .inr rfl
    toServer := ⟨rfl,(List.append_nil _).trans sound.codec.start⟩
    toClient := ⟨rfl,sound.codec.start⟩}

theorem client_send (rest : List UInt8) :
    rest = [] ∧ Client.send rest = .receiving [] ∨ rest ≠ [] ∧ Client.send rest = .sending rest := by
  unfold Client.send
  by_cases empty : rest = []
  · exact .inl ⟨empty,if_pos empty⟩
  · exact .inr ⟨empty,if_neg empty⟩

theorem server_send (rest : List UInt8) :
    rest = [] ∧ Server.send rest = .decoding ∨ rest ≠ [] ∧ Server.send rest = .writing rest := by
  unfold Server.send
  by_cases empty : rest = []
  · exact .inl ⟨empty,if_pos empty⟩
  · exact .inr ⟨empty,if_neg empty⟩

theorem phase_idle (phase : s.Phase limit taken) (client : s.client = .idle) : ∃ k, s.Idle taken k := by
  cases phase with
  | idle phase => exact ⟨_,phase⟩
  | requesting phase =>
      rcases client_send _ with ⟨_,stage⟩ | ⟨_,stage⟩ <;> cases client.symm.trans (phase.client.trans stage)
  | calling phase => cases client.symm.trans phase.client
  | responding phase => cases client.symm.trans phase.client
  | closed phase => cases client.symm.trans phase.client

theorem phase_sending (phase : s.Phase limit taken) (client : s.client = .sending rest) :
    ∃ k data payload, s.Requesting limit taken k data payload rest := by
  cases phase with
  | idle phase => cases client.symm.trans phase.client
  | requesting phase =>
      rcases client_send _ with ⟨_,stage⟩ | ⟨_,stage⟩
      · cases client.symm.trans (phase.client.trans stage)
      · cases client.symm.trans (phase.client.trans stage)
        exact ⟨_,_,_,phase⟩
  | calling phase => cases client.symm.trans phase.client
  | responding phase => cases client.symm.trans phase.client
  | closed phase => cases client.symm.trans phase.client

theorem phase_answered (phase : s.Phase limit taken) (client : s.client = .receiving buffer) (some : s.toClient ≠ []) :
    ∃ k data payload rest, s.Responding limit taken k data payload rest buffer := by
  cases phase with
  | idle phase => cases client.symm.trans phase.client
  | requesting phase => exact absurd phase.toClient.channel some
  | calling phase => exact absurd phase.toClient.channel some
  | responding phase =>
      cases client.symm.trans phase.client
      exact ⟨_,_,_,_,phase⟩
  | closed phase => cases client.symm.trans phase.client

theorem phase_asked (phase : s.Phase limit taken) (some : s.toServer ≠ []) :
    ∃ k data payload rest, s.Requesting limit taken k data payload rest := by
  cases phase with
  | idle phase => exact absurd phase.toServer.channel some
  | requesting phase => exact ⟨_,_,_,_,phase⟩
  | calling phase => exact absurd phase.toServer.channel some
  | responding phase => exact absurd phase.toServer.channel some
  | closed phase => exact absurd phase.toServer.channel some

theorem phase_calling (phase : s.Phase limit taken) (server : s.server = .calling data) : ∃ k, s.Calling taken k data := by
  cases phase with
  | idle phase => rcases phase.server with stage | stage <;> cases server.symm.trans stage
  | requesting phase => rcases phase.server with stage | ⟨stage,_⟩ <;> cases server.symm.trans stage
  | calling phase =>
      cases server.symm.trans phase.server
      exact ⟨_,phase⟩
  | responding phase =>
      rcases phase.server with stage | ⟨_,stage⟩
      · rcases server_send _ with ⟨_,sends⟩ | ⟨_,sends⟩ <;> cases server.symm.trans (stage.trans sends)
      · cases server.symm.trans stage
  | closed phase => rcases phase.server with (stage | stage) | stage <;> cases server.symm.trans stage

theorem phase_writing (phase : s.Phase limit taken) (server : s.server = .writing rest) :
    ∃ k data payload buffer, s.Responding limit taken k data payload rest buffer := by
  cases phase with
  | idle phase => rcases phase.server with stage | stage <;> cases server.symm.trans stage
  | requesting phase => rcases phase.server with stage | ⟨stage,_⟩ <;> cases server.symm.trans stage
  | calling phase => cases server.symm.trans phase.server
  | responding phase =>
      rcases phase.server with stage | ⟨_,stage⟩
      · rcases server_send _ with ⟨_,sends⟩ | ⟨_,sends⟩
        · cases server.symm.trans (stage.trans sends)
        · cases server.symm.trans (stage.trans sends)
          exact ⟨_,_,_,_,phase⟩
      · cases server.symm.trans stage
  | closed phase => rcases phase.server with (stage | stage) | stage <;> cases server.symm.trans stage

theorem message_frame (sound : link.Sound limit taken) (bytes : link.serialize message = some payload)
    (fits : payload.length ≤ limit) : link.message message = some (frame payload) := by
  rw [Link.message,bytes,Option.bind_some,sound.codec.encoded payload fits]

-- How far the calls are, and how much the two sides have to do before the next
-- of them gets further.
def Connection.ahead (s : Connection link.codec) : Nat :=
  (link.calls.length - s.issued) + (link.calls.length - s.received.length) +
    (link.calls.length - s.produced.length) + (link.calls.length - s.returned.length)

def Client.work : Client → Nat
  | .sending rest => 3 * rest.length + 1
  | .closed => 0
  | _ => 1

def Server.work : Server → Nat
  | .writing rest => 3 * rest.length + 2
  | .reading => 1
  | .ended => 0
  | _ => 2

def Connection.work (s : Connection link.codec) : Nat :=
  s.client.work + 2 * s.toServer.length + s.server.work + 2 * s.toClient.length

def Falls (t s : Connection link.codec) : Prop :=
  Prod.Lex (· < ·) (· < ·) (t.ahead,t.work) (s.ahead,s.work)

theorem results_length (link : Link) : link.results.length = link.calls.length := List.length_mapIdx

theorem counted_ahead (counted : s.Counted issued received produced returned) : s.ahead =
    (link.calls.length - issued) + (link.calls.length - received) + (link.calls.length - produced) +
      (link.calls.length - returned) := by
  obtain ⟨a,b,c,d,_⟩ := counted
  unfold Connection.ahead
  rw [a,b,c,d]
  simp only [List.length_take,results_length]
  omega

theorem falls_count (before : s.Counted a b c d) (after : t.Counted e f g h)
    (less : (link.calls.length - e) + (link.calls.length - f) + (link.calls.length - g) + (link.calls.length - h) <
      (link.calls.length - a) + (link.calls.length - b) + (link.calls.length - c) + (link.calls.length - d)) :
    Falls t s := by
  apply Prod.Lex.left
  rw [counted_ahead before,counted_ahead after]
  exact less

theorem falls_work (same : t.ahead = s.ahead) (less : t.work < s.work) : Falls t s := by
  unfold Falls
  rw [same]
  exact Prod.Lex.right _ less

theorem client_send_work (rest : List UInt8) : (Client.send rest).work = 3 * rest.length + 1 := by
  rcases client_send rest with ⟨rfl,stage⟩ | ⟨_,stage⟩ <;> rw [stage] <;> rfl

theorem server_send_work (rest : List UInt8) : (Server.send rest).work = 3 * rest.length + 2 := by
  rcases server_send rest with ⟨rfl,stage⟩ | ⟨_,stage⟩ <;> rw [stage] <;> rfl

theorem here_bound (here : link.calls[k]? = some data) : k < link.calls.length :=
  (List.getElem?_eq_some_iff.mp here).1

theorem here_result (here : link.calls[k]? = some data) : link.results[k]? = some (link.result k data) := by
  rw [Link.results,List.getElem?_mapIdx,here]
  rfl

theorem take_next {list : List α} (here : list[k]? = some x) : list.take (k + 1) = list.take k ++ [x] := by
  rw [List.take_add_one,here]
  rfl

theorem call_phase (sound : link.Sound limit taken) (phase : s.Phase limit taken) (moved : s.call = some t) :
    t.Phase limit taken ∧ Falls t s := by
  unfold Connection.call at moved
  split at moved
  · rename_i data client here
    obtain ⟨k,idle⟩ := phase_idle phase client
    obtain ⟨issued,before⟩ := idle.counted
    rw [issued] at here
    obtain ⟨payload,bytes,fits⟩ := sound.requests data (List.mem_of_getElem? here)
    rw [message_frame sound bytes fits] at moved
    cases moved
    have counted : Connection.Counted {s with client := .send (frame payload), issued := s.issued + 1} (k + 1) k k k :=
      ⟨congrArg (· + 1) issued,before⟩
    have bound := here_bound here
    have client : Connection.client {s with client := .send (frame payload), issued := s.issued + 1} =
      .send (frame payload) := rfl
    refine ⟨.requesting ⟨here,bytes,fits,counted,client,?_,?_,idle.toClient⟩,?_⟩
    · refine idle.server.imp id fun reading => ⟨reading,?_⟩
      dsimp only
      rw [idle.toServer.channel,List.nil_append]
      exact frame_ne_nil payload
    · unfold InFlight
      dsimp only
      rw [idle.toServer.kept,idle.toServer.channel]
      rfl
    · exact falls_count idle.counted counted (by omega)
  · cases moved

theorem requesting_alive (phase : s.Requesting limit taken k data payload rest) : s.server.gone = false := by
  rcases phase.server with stage | ⟨stage,_⟩ <;> rw [stage] <;> rfl

theorem clientWrite_phase (phase : s.Phase limit taken) (moved : s.clientWrite n = some t) :
    t.Phase limit taken ∧ Falls t s := by
  unfold Connection.clientWrite at moved
  split at moved
  · rename_i rest client
    obtain ⟨k,data,payload,asks⟩ := phase_sending phase client
    rw [requesting_alive asks,if_neg Bool.false_ne_true] at moved
    split at moved
    · rename_i some
      cases moved
      obtain ⟨positive,most,_⟩ := some
      refine ⟨.requesting ⟨asks.here,asks.bytes,asks.fits,asks.counted,rfl,?_,write_inFlight asks.toServer n,
        asks.toClient⟩,?_⟩
      · refine asks.server.imp id fun ⟨reading,missing⟩ => ⟨reading,?_⟩
        dsimp only
        rw [List.append_assoc,List.take_append_drop]
        exact missing
      · refine falls_work rfl ?_
        unfold Connection.work
        dsimp only
        rw [client_send_work,client,Client.work,List.length_append,List.length_take,List.length_drop]
        omega
    · cases moved
  · cases moved

theorem decode_more (decoded : link.codec.decode s.clientCodec buffer = .more state left) :
    s.decode buffer = {s with client := .receiving left, clientCodec := state} := by
  unfold Connection.decode
  rw [decoded]

theorem decode_result (decoded : link.codec.decode s.clientCodec buffer = .frame payload state left)
    (message : link.deserialize payload = some (.funcCallResult result)) : s.decode buffer =
      {s with client := .idle, clientCodec := state, lost := s.lost ++ left, returned := s.returned ++ [result]} := by
  unfold Connection.decode
  rw [decoded]
  dsimp only
  rw [message]

theorem clientRead_phase (sound : link.Sound limit taken) (phase : s.Phase limit taken) (moved : s.clientRead n = some t) :
    t.Phase limit taken ∧ Falls t s := by
  unfold Connection.clientRead at moved
  split at moved
  · rename_i buffer client
    split at moved
    · rename_i some
      cases moved
      obtain ⟨positive,_,most⟩ := some
      have some : s.toClient ≠ [] := List.length_pos_iff.mp (Nat.lt_of_lt_of_le positive most)
      obtain ⟨k,data,payload,rest,answers⟩ := phase_answered phase client some
      rcases decode_inFlight sound.codec answers.fits (read_inFlight answers.toClient n) with
        ⟨next,left,decoded,flight,missing⟩ | ⟨next,decoded,kept,empty,rfl⟩
      · rw [decode_more (s := {s with toClient := s.toClient.drop n}) decoded]
        refine ⟨.responding ⟨answers.here,answers.bytes,answers.fits,answers.counted,rfl,answers.server,missing,
          answers.toServer,flight⟩,?_⟩
        refine falls_work rfl ?_
        simp only [Connection.work,client,Client.work,List.length_drop]
        omega
      · rw [decode_result (s := {s with toClient := s.toClient.drop n}) decoded (sound.bincode _ _ answers.bytes)]
        have bound := here_bound answers.here
        obtain ⟨issued,received,produced,returned,lost⟩ := answers.counted
        have next : s.returned ++ [link.result k data] = link.results.take (k + 1) := by
          rw [returned,take_next (here_result answers.here)]
        have dropped : s.lost ++ [] = [] := by rw [lost]; rfl
        refine ⟨.idle ⟨bound,⟨issued,received,produced,next,dropped⟩,rfl,?_,answers.toServer,⟨empty,kept⟩⟩,?_⟩
        · rcases answers.server with sends | ⟨_,reading⟩
          · exact .inl sends
          · exact .inr reading
        · exact falls_count answers.counted ⟨issued,received,produced,next,dropped⟩ (by omega)
    · cases moved
  · cases moved

theorem clientEnd_phase (phase : s.Phase limit taken) : s.clientEnd = none := by
  unfold Connection.clientEnd
  split
  · rename_i buffer client
    apply if_neg
    rintro ⟨_,gone⟩
    cases phase with
    | idle phase => cases client.symm.trans phase.client
    | requesting phase => cases (requesting_alive phase).symm.trans gone
    | calling phase => rw [phase.server] at gone; cases gone
    | responding phase =>
        rcases phase.server with stage | ⟨_,stage⟩
        · rcases server_send _ with ⟨_,sends⟩ | ⟨_,sends⟩ <;> rw [stage,sends] at gone <;> cases gone
        · rw [stage] at gone
          cases gone
    | closed phase => cases client.symm.trans phase.client
  · rfl

theorem hangUp_phase (phase : s.Phase limit taken) (moved : s.hangUp = some t) : t.Phase limit taken ∧ Falls t s := by
  unfold Connection.hangUp at moved
  split at moved
  · rename_i client none
    cases moved
    obtain ⟨k,idle⟩ := phase_idle phase client
    rw [idle.counted.1,List.getElem?_eq_none_iff] at none
    obtain rfl : k = link.calls.length := Nat.le_antisymm idle.bound none
    refine ⟨.closed ⟨idle.counted,rfl,.inl idle.server,idle.toServer,idle.toClient⟩,?_⟩
    refine falls_work rfl ?_
    simp only [Connection.work,client,Client.work]
    omega
  · cases moved

theorem serverRead_phase (phase : s.Phase limit taken) (moved : s.serverRead n = some t) :
    t.Phase limit taken ∧ Falls t s := by
  unfold Connection.serverRead at moved
  split at moved
  · rename_i server
    split at moved
    · rename_i some
      cases moved
      obtain ⟨positive,most⟩ := some
      have some : s.toServer ≠ [] := List.length_pos_iff.mp (Nat.lt_of_lt_of_le positive most)
      obtain ⟨k,data,payload,rest,asks⟩ := phase_asked phase some
      refine ⟨.requesting ⟨asks.here,asks.bytes,asks.fits,asks.counted,asks.client,.inl rfl,
        read_inFlight asks.toServer n,asks.toClient⟩,?_⟩
      refine falls_work rfl ?_
      simp only [Connection.work,server,Server.work,List.length_drop]
      omega
    · cases moved
  · cases moved

theorem decode_clear (sound : link.Sound limit taken) (server : s.server = .decoding)
    (clear : Clear s.toServer (taken s.serverCodec ++ s.buffer)) (moved : s.serverDecode = some t) :
    ∃ state left, t = {s with server := .reading, serverCodec := state, buffer := left} ∧
      Clear s.toServer (taken state ++ left) ∧ Falls t s := by
  obtain ⟨next,left,decoded,same⟩ := decode_nothing sound.codec clear.kept
  unfold Connection.serverDecode at moved
  rw [server] at moved
  dsimp only at moved
  rw [decoded] at moved
  cases moved
  refine ⟨next,left,rfl,⟨clear.channel,same⟩,falls_work rfl ?_⟩
  simp only [Connection.work,server,Server.work]
  omega

theorem decode_request (sound : link.Sound limit taken) (asks : s.Requesting limit taken k data payload rest)
    (server : s.server = .decoding) (moved : s.serverDecode = some t) : t.Phase limit taken ∧ Falls t s := by
  unfold Connection.serverDecode at moved
  rw [server] at moved
  dsimp only at moved
  rcases decode_inFlight sound.codec asks.fits asks.toServer with
    ⟨next,left,decoded,flight,missing⟩ | ⟨next,decoded,kept,empty,rfl⟩
  · rw [decoded] at moved
    cases moved
    refine ⟨.requesting ⟨asks.here,asks.bytes,asks.fits,asks.counted,asks.client,.inr ⟨rfl,missing⟩,flight,
      asks.toClient⟩,?_⟩
    refine falls_work rfl ?_
    simp only [Connection.work,server,Server.work]
    omega
  · rw [decoded] at moved
    dsimp only at moved
    rw [sound.bincode _ _ asks.bytes] at moved
    cases moved
    have bound := here_bound asks.here
    obtain ⟨issued,received,before⟩ := asks.counted
    have next : s.received ++ [data] = link.calls.take (k + 1) := by rw [received,take_next asks.here]
    refine ⟨.calling ⟨asks.here,⟨issued,next,before⟩,asks.client,rfl,⟨empty,?_⟩,asks.toClient⟩,?_⟩
    · exact (List.append_nil _).trans kept
    · exact falls_count asks.counted ⟨issued,next,before⟩ (by omega)

theorem serverDecode_phase (sound : link.Sound limit taken) (phase : s.Phase limit taken)
    (moved : s.serverDecode = some t) : t.Phase limit taken ∧ Falls t s := by
  have server : s.server = .decoding := by
    unfold Connection.serverDecode at moved
    split at moved
    · assumption
    · cases moved
  cases phase with
  | idle phase =>
      obtain ⟨state,left,rfl,clear,falls⟩ := decode_clear sound server phase.toServer moved
      exact ⟨.idle ⟨phase.bound,phase.counted,phase.client,.inr rfl,clear,phase.toClient⟩,falls⟩
  | requesting phase => exact decode_request sound phase server moved
  | calling phase => cases server.symm.trans phase.server
  | responding phase =>
      obtain ⟨state,left,rfl,clear,falls⟩ := decode_clear sound server phase.toServer moved
      refine ⟨.responding ⟨phase.here,phase.bytes,phase.fits,phase.counted,phase.client,.inr ⟨?_,rfl⟩,phase.missing,
        clear,phase.toClient⟩,falls⟩
      rcases phase.server with stage | ⟨written,_⟩
      · rcases server_send _ with ⟨written,_⟩ | ⟨_,sends⟩
        · exact written
        · cases server.symm.trans (stage.trans sends)
      · exact written
  | closed phase =>
      obtain ⟨state,left,rfl,clear,falls⟩ := decode_clear sound server phase.toServer moved
      exact ⟨.closed ⟨phase.counted,phase.client,.inl (.inr rfl),clear,phase.toClient⟩,falls⟩

theorem respond_phase (sound : link.Sound limit taken) (phase : s.Phase limit taken) (moved : s.respond = some t) :
    t.Phase limit taken ∧ Falls t s := by
  unfold Connection.respond at moved
  split at moved
  · rename_i data server
    obtain ⟨k,calls⟩ := phase_calling phase server
    have bound := here_bound calls.here
    obtain ⟨issued,received,produced,returned,lost⟩ := calls.counted
    have number : s.produced.length = k := by
      rw [produced,List.length_take,results_length]
      omega
    have result : functionCall (link.http s.produced.length) data.fnName data.args = link.result k data := by
      rw [number]
      rfl
    have member := List.mem_of_getElem? (here_result calls.here)
    obtain ⟨payload,bytes,fits⟩ := sound.answers _ member
    dsimp only at moved
    rw [result,message_frame sound bytes fits] at moved
    cases moved
    have next : s.produced ++ [link.result k data] = link.results.take (k + 1) := by
      rw [produced,take_next (here_result calls.here)]
    refine ⟨.responding ⟨calls.here,bytes,fits,⟨issued,received,next,returned,lost⟩,calls.client,
      .inl (Eq.refl (Server.send (frame payload))),?_,calls.toServer,?_⟩,?_⟩
    · exact fun empty => frame_ne_nil payload (List.append_eq_nil_iff.mp empty).2
    · unfold InFlight
      dsimp only
      rw [calls.toClient.kept,calls.toClient.channel]
      rfl
    · exact falls_count calls.counted ⟨issued,received,next,returned,lost⟩ (by omega)
  · cases moved

theorem serverWrite_phase (phase : s.Phase limit taken) (moved : s.serverWrite n = some t) :
    t.Phase limit taken ∧ Falls t s := by
  unfold Connection.serverWrite at moved
  split at moved
  · rename_i rest server
    obtain ⟨k,data,payload,buffer,answers⟩ := phase_writing phase server
    rw [show s.client.gone = false by rw [answers.client]; rfl,if_neg Bool.false_ne_true] at moved
    split at moved
    · rename_i some
      cases moved
      obtain ⟨positive,most,_⟩ := some
      refine ⟨.responding ⟨answers.here,answers.bytes,answers.fits,answers.counted,answers.client,.inl rfl,?_,
        answers.toServer,write_inFlight answers.toClient n⟩,?_⟩
      · dsimp only
        rw [List.append_assoc,List.take_append_drop]
        exact answers.missing
      · refine falls_work rfl ?_
        unfold Connection.work
        dsimp only
        rw [server_send_work,server,Server.work,List.length_append,List.length_take,List.length_drop]
        omega
    · cases moved
  · cases moved

theorem serverEnd_phase (phase : s.Phase limit taken) (moved : s.serverEnd = some t) :
    t.Phase limit taken ∧ Falls t s := by
  unfold Connection.serverEnd at moved
  split at moved
  · rename_i server
    split at moved
    · rename_i both
      cases moved
      cases phase with
      | idle phase => rw [phase.client] at both; cases both.2
      | requesting phase =>
          rw [phase.client] at both
          rcases client_send _ with ⟨_,sends⟩ | ⟨_,sends⟩ <;> rw [sends] at both <;> cases both.2
      | calling phase => rw [phase.client] at both; cases both.2
      | responding phase => rw [phase.client] at both; cases both.2
      | closed phase =>
          refine ⟨.closed ⟨phase.counted,phase.client,.inr rfl,phase.toServer,phase.toClient⟩,?_⟩
          refine falls_work rfl ?_
          simp only [Connection.work,server,Server.work]
          omega
    · cases moved
  · cases moved

theorem step_phase (sound : link.Sound limit taken) (phase : s.Phase limit taken) (moved : step link s action = some t) :
    t.Phase limit taken ∧ Falls t s := by
  cases action with
  | call => exact call_phase sound phase moved
  | clientWrite n => exact clientWrite_phase phase moved
  | clientRead n => exact clientRead_phase sound phase moved
  | clientEnd => cases (clientEnd_phase phase).symm.trans moved
  | hangUp => exact hangUp_phase phase moved
  | serverRead n => exact serverRead_phase phase moved
  | serverDecode => exact serverDecode_phase sound phase moved
  | respond => exact respond_phase sound phase moved
  | serverWrite n => exact serverWrite_phase phase moved
  | serverEnd => exact serverEnd_phase phase moved

theorem reached_phase (sound : link.Sound limit taken) (reached : run (step link) (init link) actions = some s) :
    s.Phase limit taken :=
  run_preserves (fun s : Connection link.codec => s.Phase limit taken)
    (fun _ _ _ phase moved => (step_phase sound phase moved).1) (init_phase sound) reached

theorem requesting_moves (asks : s.Requesting limit taken k data payload rest) :
    ∃ action t, step link s action = some t := by
  rcases asks.server with decoding | ⟨reading,missing⟩
  · refine ⟨.serverDecode,?_⟩
    unfold step Connection.serverDecode
    dsimp only
    rw [decoding]
    dsimp only
    split
    · exact ⟨_,rfl⟩
    · split <;> exact ⟨_,rfl⟩
    · exact ⟨_,rfl⟩
  · by_cases empty : s.toServer = []
    · have unwritten : rest ≠ [] := by
        rw [empty] at missing
        exact missing
      have client : s.client = .sending rest := asks.client.trans (if_neg unwritten)
      have room : s.toServer.length + 1 ≤ link.capacity := by
        rw [empty]
        exact link.positive
      refine ⟨.clientWrite 1,?_⟩
      unfold step Connection.clientWrite
      dsimp only
      rw [client]
      dsimp only
      rw [requesting_alive asks,if_neg Bool.false_ne_true,
        if_pos ⟨Nat.one_pos,List.length_pos_iff.mpr unwritten,room⟩]
      exact ⟨_,rfl⟩
    · refine ⟨.serverRead 1,?_⟩
      unfold step Connection.serverRead
      dsimp only
      rw [reading]
      dsimp only
      rw [if_pos ⟨Nat.one_pos,List.length_pos_iff.mpr empty⟩]
      exact ⟨_,rfl⟩

theorem responding_moves (answers : s.Responding limit taken k data payload rest buffer) :
    ∃ action t, step link s action = some t := by
  by_cases empty : s.toClient = []
  · have unwritten : rest ≠ [] := by
      have missing := answers.missing
      rw [empty] at missing
      exact missing
    have server : s.server = .writing rest := by
      rcases answers.server with stage | ⟨written,_⟩
      · exact stage.trans (if_neg unwritten)
      · exact absurd written unwritten
    have room : s.toClient.length + 1 ≤ link.capacity := by
      rw [empty]
      exact link.positive
    refine ⟨.serverWrite 1,?_⟩
    unfold step Connection.serverWrite
    dsimp only
    rw [server]
    dsimp only
    rw [show s.client.gone = false by rw [answers.client]; rfl,if_neg Bool.false_ne_true,
      if_pos ⟨Nat.one_pos,List.length_pos_iff.mpr unwritten,room⟩]
    exact ⟨_,rfl⟩
  · refine ⟨.clientRead 1,?_⟩
    unfold step Connection.clientRead
    dsimp only
    rw [answers.client]
    dsimp only
    rw [if_pos ⟨Nat.one_pos,by decide,List.length_pos_iff.mpr empty⟩]
    exact ⟨_,rfl⟩

theorem all_returned (counted : s.Counted a b c link.calls.length) : s.returned = link.results := by
  obtain ⟨_,_,_,returned,_⟩ := counted
  rw [returned,← results_length,List.take_length]

theorem phase_moves (phase : s.Phase limit taken) :
    s.returned = link.results ∨ ∃ action t, step link s action = some t := by
  cases phase with
  | idle phase =>
      cases here : link.calls[s.issued]? with
      | none =>
          rw [phase.counted.1,List.getElem?_eq_none_iff] at here
          obtain rfl := Nat.le_antisymm phase.bound here
          exact .inl (all_returned phase.counted)
      | some data =>
          refine .inr ⟨.call,?_⟩
          unfold step Connection.call
          dsimp only
          rw [phase.client,here]
          dsimp only
          split <;> exact ⟨_,rfl⟩
  | requesting phase => exact .inr (requesting_moves phase)
  | calling phase =>
      refine .inr ⟨.respond,?_⟩
      unfold step Connection.respond
      dsimp only
      rw [phase.server]
      dsimp only
      split <;> exact ⟨_,rfl⟩
  | responding phase => exact .inr (responding_moves phase)
  | closed phase => exact .inl (all_returned phase.counted)

theorem phase_returns (sound : link.Sound limit taken) :
    Inevitable (step link) (fun s : Connection link.codec => s.returned = link.results) (init link) := by
  apply inevitable_of_rank (fun s : Connection link.codec => s.Phase limit taken) (fun s => (s.ahead,s.work)) lex_founded
  · exact fun s phase => phase_moves phase
  · exact fun s action t phase moved => step_phase sound phase moved
  · exact init_phase sound

theorem phase_counted (phase : s.Phase limit taken) : ∃ issued received produced returned,
    s.Counted issued received produced returned ∧ returned ≤ produced := by
  cases phase with
  | idle phase => exact ⟨_,_,_,_,phase.counted,Nat.le_refl _⟩
  | requesting phase => exact ⟨_,_,_,_,phase.counted,Nat.le_refl _⟩
  | calling phase => exact ⟨_,_,_,_,phase.counted,Nat.le_refl _⟩
  | responding phase => exact ⟨_,_,_,_,phase.counted,Nat.le_succ _⟩
  | closed phase => exact ⟨_,_,_,_,phase.counted,Nat.le_refl _⟩

theorem phase_alive (phase : s.Phase limit taken) : s.client ≠ .panicked := by
  intro panicked
  cases phase with
  | idle phase => cases panicked.symm.trans phase.client
  | requesting phase =>
      rcases client_send _ with ⟨_,stage⟩ | ⟨_,stage⟩ <;> cases panicked.symm.trans (phase.client.trans stage)
  | calling phase => cases panicked.symm.trans phase.client
  | responding phase => cases panicked.symm.trans phase.client
  | closed phase => cases panicked.symm.trans phase.client

end Phases

theorem func_calls_exact (link : Link) (limit : Nat) (taken : link.codec.State → List UInt8)
    (sound : link.Sound limit taken) :
    Inevitable (step link) (fun s => s.returned = link.results) (init link) ∧
      ∀ actions s, run (step link) (init link) actions = some s →
        s.received <+: link.calls ∧ s.produced <+: link.results ∧ s.returned <+: s.produced ∧
          s.client ≠ .panicked ∧ s.lost = [] ∧
          (s.client = .idle → s.returned = s.produced ∧ s.toServer = [] ∧ s.buffer = [] ∧ s.toClient = []) := by
  refine ⟨phase_returns sound,?_⟩
  intro actions s reached
  have phase := reached_phase sound reached
  obtain ⟨issued,received,produced,returned,⟨_,asked,made,got,lost⟩,order⟩ := phase_counted phase
  refine ⟨?_,?_,?_,phase_alive phase,lost,?_⟩
  · rw [asked]
    exact List.take_prefix _ _
  · rw [made]
    exact List.take_prefix _ _
  · rw [got,made]
    exact List.take_prefix_take_left order
  · intro client
    obtain ⟨k,idle⟩ := phase_idle phase client
    obtain ⟨_,_,same,equal,_⟩ := idle.counted
    obtain ⟨_,empty⟩ := List.append_eq_nil_iff.mp idle.toServer.kept
    exact ⟨equal.trans same.symm,idle.toServer.channel,empty,idle.toClient.channel⟩

def echo : Link where
  codec := lengthDelimited 8388608
  serialize := Bincode.serialize
  deserialize := Bincode.deserialize
  calls := [⟨"echo",[1,2,3]⟩,⟨"echo",[]⟩]
  http := fun _ _ args => if args = [] then .status "500" else .body args
  capacity := 5
  positive := by decide

def echoResults : List CallResult := [.ok [1,2,3],.error "Call Request failed with error code: 500"]

theorem echo_results : echo.results = echoResults := by
  rfl

theorem echo_sound : echo.Sound 8388608 DecodeState.taken where
  codec := lengthDelimited_laws (by decide)
  bincode := Bincode.deserialize_serialize
  requests := by
    intro data member
    rcases List.mem_pair.mp member with rfl | rfl
    · exact ⟨_,rfl,by decide⟩
    · exact ⟨_,rfl,by decide⟩
  answers := by
    intro result member
    rw [echo_results] at member
    rcases List.mem_pair.mp member with rfl | rfl
    · exact ⟨_,rfl,by decide⟩
    · exact ⟨_,rfl,by decide⟩

theorem func_calls_exact_echo : Inevitable (step echo) (fun s => s.returned = echoResults) (init echo) := by
  rw [← echo_results]
  exact (func_calls_exact echo 8388608 DecodeState.taken echo_sound).1

end OpenLambda.Proxy
