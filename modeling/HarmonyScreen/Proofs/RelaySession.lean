import HarmonyScreen.Relay.WebSocketServer
import HarmonyScreen.Proofs.Upgrade
import HarmonyScreen.Proofs.WebSocketStream

namespace HarmonyScreen.Proofs.RelaySession
open Receiver Receiver.WebSocket Relay WebSocketStream Upgrade

section Frames

variable {f : RawFrame} {stream rest : Bytes} {frame : WebSocketFrame}

/-- A client's frame within the limits of the relay. -/
structure Fits (f : RawFrame) : Prop extends f.Masked where
  small : f.payload.length ≤ kMaxWebSocketMessageBytes
  control : f.opcode.isControl = true → f.final = true ∧ f.payload.length ≤ 125

def taken (f : RawFrame) : WebSocketFrame := ⟨f.final, f.opcode.value, f.payload⟩

theorem receiveExact_append {count : Nat} {bytes : Bytes} (h : bytes.length = count) (rest : Bytes) :
    receiveExact count (bytes ++ rest) = .ok (bytes, rest) := by
  rw [receiveExact, if_neg (by simp [h]), List.take_left' h, List.drop_left' h]

theorem high_bit {extended : Bytes} (h : extended.length = 8) (hsmall : readBig extended < 2 ^ 63) :
    extended.getD 0 0 &&& 0x80 = 0 := by
  cases extended with
  | nil => cases h
  | cons b extended =>
    have hlength : extended.length = 7 := Nat.succ.inj h
    have hb : b.toNat < 128 := by
      rw [readBig_cons, hlength] at hsmall
      omega
    have hall : ∀ n < 128, n.toUInt8 &&& 0x80 = 0 := by decide
    simpa [Nat.toUInt8] using hall b.toNat hb

/-- The lengths are read as the Receiver reads them. -/
theorem receiveLength_of_readLength {code : UInt8} {length : Nat}
    (h : readLength code stream = some (length, rest)) (hsmall : length < 2 ^ 63) :
    receiveLength code stream = .ok (length, rest) := by
  unfold readLength at h
  unfold receiveLength receiveExact
  split at h
  · rename_i hcode
    split at h
    · cases h
    · rename_i hlong
      cases h
      rw [if_pos hcode, if_neg hlong]
      rfl
  · rename_i hcode
    rw [if_neg hcode]
    split at h
    · rename_i hcode'
      split at h
      · cases h
      · rename_i hlong
        cases h
        rw [if_pos hcode', if_neg hlong]
        have hbit := @high_bit (stream.take 8) (by rw [List.length_take]; omega) hsmall
        simp only [bind, Except.bind, hbit]
        rfl
    · rename_i hcode'
      cases h
      rw [if_neg hcode']
      rfl

theorem opcode_known (op : Opcode) : ¬ (op.value ≠ 0x0 ∧ op.value ≠ 0x1 ∧ op.value ≠ 0x2 ∧
    op.value ≠ 0x8 ∧ op.value ≠ 0x9 ∧ op.value ≠ 0xA) := by
  cases op <;> decide

theorem bind_of {α β : Type} {x : Except String α} {next : α → Except String β} {a : α}
    {r : Except String β} (h : x = .ok a) (hnext : next a = r) : x >>= next = r := by
  rw [h]
  exact hnext

theorem guard_of {α : Type} {p : Prop} [Decidable p] {message : String} {x r : Except String α}
    (h : ¬ p) (hx : x = r) : (if p then throw message else x) = r :=
  (if_neg h).trans hx

/-- A frame within the limits is taken off the connection, whatever comes behind it. -/
theorem receiveFrame_bytes (hf : Fits f) (rest : Bytes) :
    receiveFrame (f.bytes ++ rest) = .ok (taken f, rest) := by
  obtain ⟨key, hkey, hlen⟩ := hf.key
  obtain ⟨hfin, hop, hrsv⟩ := first_byte f.final f.opcode
  obtain ⟨hread, hbit⟩ := readLength_bytes f hf.holds (key ++ (unmask key f.payload ++ rest))
  have hsmall := hf.small
  have hlength := receiveLength_of_readLength hread (by
    unfold kMaxWebSocketMessageBytes kLocalVideoHeaderSize kMaxVideoPayloadBytes at hsmall
    omega)
  have hbytes : f.bytes ++ rest =
      [(if f.final then 0x80 else 0) ||| f.opcode.value, 0x80 ||| f.lengthBytes.1] ++
        (f.lengthBytes.2 ++ (key ++ (unmask key f.payload ++ rest))) := by
    simp [RawFrame.bytes, hkey]
  have hcontrol (h : f.opcode.value ≥ 0x8) : f.final = true ∧ f.payload.length ≤ 125 :=
    hf.control ((control_value _).mp h)
  rw [hbytes]
  generalize (if f.final then 0x80 else 0) ||| f.opcode.value = first at hfin hop hrsv ⊢
  refine bind_of (receiveExact_append rfl _) ?_
  refine guard_of (by simp [hrsv, hbit]) ?_
  refine guard_of (by simpa only [List.getD_cons_zero, hop] using opcode_known f.opcode) ?_
  refine bind_of hlength ?_
  refine guard_of (Nat.not_lt.mpr hsmall) ?_
  refine guard_of (fun h => ?_) ?_
  · simp only [List.getD_cons_zero, hop] at h
    exact absurd h.2 (Nat.not_lt.mpr (hcontrol h.1).2)
  refine guard_of (fun h => ?_) ?_
  · simp only [List.getD_cons_zero, hop, hfin] at h
    simp [(hcontrol h.1).1] at h
  refine bind_of (receiveExact_append hlen _) ?_
  refine bind_of (receiveExact_append (by simp) _) ?_
  simp only [List.getD_cons_zero, hop, hfin, unmask_unmask]
  rfl

set_option maxRecDepth 8192 in
theorem first_written : ∀ n < 256, n.toUInt8 &&& 0x70 = 0 →
    (if n.toUInt8 &&& 0x80 != 0 then 0x80 else 0) ||| (n.toUInt8 &&& 0x0f) = n.toUInt8 := by
  decide

set_option maxRecDepth 8192 in
theorem second_written : ∀ n < 256, n.toUInt8 &&& 0x80 ≠ 0 →
    0x80 ||| (n.toUInt8 &&& 0x7f) = n.toUInt8 := by
  decide

set_option maxRecDepth 8192 in
theorem low_bits : ∀ n < 256, (n.toUInt8 &&& 0x7f).toNat < 128 := by
  decide

theorem byte_of {p : UInt8 → Prop} (h : ∀ n < 256, p n.toUInt8) (b : UInt8) : p b := by
  simpa [Nat.toUInt8] using h b.toNat b.toNat_lt

theorem known_opcode {v : UInt8} (h : ¬ (v ≠ 0x0 ∧ v ≠ 0x1 ∧ v ≠ 0x2 ∧ v ≠ 0x8 ∧ v ≠ 0x9 ∧ v ≠ 0xA)) :
    ∃ op : Opcode, v = op.value := by
  by_contra hnone
  refine h ⟨?_, ?_, ?_, ?_, ?_, ?_⟩
  · exact fun h => hnone ⟨.continuation, h⟩
  · exact fun h => hnone ⟨.text, h⟩
  · exact fun h => hnone ⟨.binary, h⟩
  · exact fun h => hnone ⟨.close, h⟩
  · exact fun h => hnone ⟨.ping, h⟩
  · exact fun h => hnone ⟨.pong, h⟩

/-- Each length is one a client may have written. -/
theorem receiveLength_written {code : UInt8} {length : Nat} (hcode : code.toNat < 128)
    (h : receiveLength code stream = .ok (length, rest)) :
    ∃ form : LengthForm, form.holds length ∧ ∀ f : RawFrame, f.form = form →
      f.payload.length = length → f.lengthBytes.1 = code ∧ stream = f.lengthBytes.2 ++ rest := by
  unfold receiveLength at h
  split at h
  · rename_i hcode
    obtain ⟨⟨extended, left⟩, hextended, h⟩ := bind_ok h
    cases h
    obtain ⟨htwo, rfl⟩ := receiveExact_ok hextended
    refine ⟨.medium, (readBig_lt extended).trans_eq (by rw [htwo]; rfl), fun f hform hlength => ?_⟩
    have hback := bigEndian_readBig extended
    rw [htwo] at hback
    simp [RawFrame.lengthBytes, hform, hlength, hback, hcode]
  · split at h
    · rename_i hcode
      obtain ⟨⟨extended, left⟩, hextended, h⟩ := bind_ok h
      obtain ⟨-, h⟩ := guard_ok h
      cases h
      obtain ⟨height, rfl⟩ := receiveExact_ok hextended
      refine ⟨.long, (readBig_lt extended).trans_eq (by rw [height]; rfl), fun f hform hlength => ?_⟩
      have hback := bigEndian_readBig extended
      rw [height] at hback
      simp [RawFrame.lengthBytes, hform, hlength, hback, hcode]
    · rename_i hmedium hlong
      cases h
      have hmedium' : code.toNat ≠ 126 := fun h => hmedium (UInt8.toNat_inj.mp h)
      have hlong' : code.toNat ≠ 127 := fun h => hlong (UInt8.toNat_inj.mp h)
      refine ⟨.short, show code.toNat ≤ 125 by omega, fun f hform hlength => ?_⟩
      simp [RawFrame.lengthBytes, hform, hlength, Nat.toUInt8]

/-- What the relay takes for a frame is the frame a client has written. -/
theorem receiveFrame_written (h : receiveFrame stream = .ok (frame, rest)) :
    ∃ f, Fits f ∧ taken f = frame ∧ stream = f.bytes ++ rest := by
  obtain ⟨⟨header, behind⟩, hheader, h⟩ := bind_ok h
  obtain ⟨hflags, h⟩ := guard_ok h
  obtain ⟨hknown, h⟩ := guard_ok h
  obtain ⟨⟨payloadLength, body⟩, hlength, h⟩ := bind_ok h
  obtain ⟨hsmall, h⟩ := guard_ok h
  obtain ⟨hshort, h⟩ := guard_ok h
  obtain ⟨hwhole, h⟩ := guard_ok h
  obtain ⟨⟨mask, masked⟩, hmask, h⟩ := bind_ok h
  obtain ⟨⟨payload, left⟩, hpayload, h⟩ := bind_ok h
  cases h
  obtain ⟨hfour, rfl⟩ := receiveExact_ok hmask
  obtain ⟨hcount, rfl⟩ := receiveExact_ok hpayload
  obtain ⟨htwo, rfl⟩ := receiveExact_ok hheader
  obtain ⟨first, second, rfl⟩ := List.length_eq_two.mp htwo
  obtain ⟨op, hop⟩ := known_opcode hknown
  have hlow : (second &&& 0x7f).toNat < 128 :=
    @byte_of (fun b => (b &&& 0x7f).toNat < 128) low_bits second
  obtain ⟨form, hholds, hform⟩ := receiveLength_written hlow hlength
  simp only [List.getD_cons_zero, List.getD_cons_succ] at hflags hop hshort hwhole ⊢
  obtain ⟨hreserved, hmasked⟩ : first &&& 0x70 = 0 ∧ second &&& 0x80 ≠ 0 := by
    simpa using hflags
  have hfirst := @byte_of (fun b => b &&& 0x70 = 0 →
    (if b &&& 0x80 != 0 then 0x80 else 0) ||| (b &&& 0x0f) = b) first_written first hreserved
  have hsecond := @byte_of (fun b => b &&& 0x80 ≠ 0 → 0x80 ||| (b &&& 0x7f) = b)
    second_written second hmasked
  let f : RawFrame := ⟨first &&& 0x80 != 0, op, some mask, form, unmask mask payload⟩
  have hlengthOf : f.payload.length = payloadLength := (length_unmask _ _).trans hcount
  obtain ⟨hcode, rfl⟩ := hform f rfl hlengthOf
  refine ⟨f, ⟨⟨⟨mask, rfl, hfour⟩, hlengthOf ▸ hholds⟩, hlengthOf ▸ Nat.not_lt.mp hsmall,
    fun hcontrol => ?_⟩, ?_, ?_⟩
  · have hlarge : first &&& 0x0f ≥ 0x8 := hop ▸ (control_value op).mpr hcontrol
    refine ⟨?_, hlengthOf ▸ Nat.not_lt.mp fun h => hshort ⟨hlarge, h⟩⟩
    exact (Bool.not_eq_false _).mp fun h => hwhole ⟨hlarge, congrArg not h⟩
  · simp only [taken, f, hop]
  · simp only [RawFrame.bytes, hcode, hsecond]
    simp only [f, unmask_unmask, ← hop, hfirst, List.cons_append, List.nil_append, List.append_assoc]

end Frames

section Messages

/-- `Spelled begun frames pings message`: the frames are a way to send the message once `begun` has
come of it, and `pings` are what its sender wants to have back meanwhile. A close frame ends the wait
for a message at any point. -/
inductive Spelled : Option (Opcode × Bytes) → List RawFrame → List Bytes → WebSocketFrame → Prop where
  | close (op : f.opcode = .close) : Spelled begun [f] [] (taken f)
  | ping (op : f.opcode = .ping) (rest : Spelled begun fs pings message) :
      Spelled begun (f :: fs) (f.payload :: pings) message
  | pong (op : f.opcode = .pong) (rest : Spelled begun fs pings message) :
      Spelled begun (f :: fs) pings message
  | whole (op : f.opcode.isData = true) (fin : f.final = true) : Spelled none [f] [] (taken f)
  | first (op : f.opcode.isData = true) (fin : f.final = false)
      (rest : Spelled (some (f.opcode, f.payload)) fs pings message) :
      Spelled none (f :: fs) pings message
  | middle (op : f.opcode = .continuation) (fin : f.final = false)
      (small : (acc ++ f.payload).length ≤ kMaxWebSocketMessageBytes)
      (rest : Spelled (some (o, acc ++ f.payload)) fs pings message) :
      Spelled (some (o, acc)) (f :: fs) pings message
  | last (op : f.opcode = .continuation) (fin : f.final = true)
      (small : (acc ++ f.payload).length ≤ kMaxWebSocketMessageBytes) :
      Spelled (some (o, acc)) [f] [] ⟨true, o.value, acc ++ f.payload⟩

/-- `message_opcode` and `message_payload` with `begun` of a message there. -/
def opcodeOf : Option (Opcode × Bytes) → UInt8
  | none => 0
  | some (o, _) => o.value

def payloadOf : Option (Opcode × Bytes) → Bytes
  | none => []
  | some (_, acc) => acc

/-- What is begun of a message that the relay goes on with. -/
structure Begun (begun : Option (Opcode × Bytes)) : Prop where
  data : ∀ o acc, begun = some (o, acc) → o.isData = true
  small : (payloadOf begun).length ≤ kMaxWebSocketMessageBytes

theorem Begun.of {o : Opcode} {acc : Bytes} (ho : o.isData = true)
    (h : acc.length ≤ kMaxWebSocketMessageBytes) : Begun (some (o, acc)) where
  data := by
    intro o' acc' heq
    cases heq
    exact ho
  small := h

theorem Begun.joined {begun : Option (Opcode × Bytes)} (hb : Begun begun) {payload : Bytes}
    (h : ¬ payload.length > kMaxWebSocketMessageBytes - (payloadOf begun).length) :
    (payloadOf begun ++ payload).length ≤ kMaxWebSocketMessageBytes := by
  have := hb.small
  rw [List.length_append]
  omega

/-- The socket once the frames up to `rest` are off it and the pings are answered. -/
def answered (socket : ClientSocket) (pings : List Bytes) (rest : Bytes) : ClientSocket :=
  { stream := rest
    sends := socket.sends + pings.length
    sent := socket.sent ++ pings.map (ClientSocket.frameBytes 0xA) }

/-- Every ping before the message has its pong, and the relay stands behind the frames of the
message. -/
def Received (accepts : Nat → Bool) (begun : Option (Opcode × Bytes)) (socket : ClientSocket)
    (message : WebSocketFrame) (socket' : ClientSocket) : Prop :=
  ∃ fs pings rest, Spelled begun fs pings message ∧ (∀ f ∈ fs, Fits f) ∧
    socket.stream = (fs.map RawFrame.bytes).flatten ++ rest ∧
    (∀ i < pings.length, accepts (socket.sends + i) = true) ∧ socket' = answered socket pings rest

variable {accepts : Nat → Bool} {begun : Option (Opcode × Bytes)} {fs : List RawFrame}
  {pings : List Bytes} {message frame : WebSocketFrame} {socket socket' : ClientSocket}
  {stream rest : Bytes} {f : RawFrame} {o : Opcode} {acc : Bytes}

theorem receiveFrame_head (hfs : ∀ g ∈ f :: fs, Fits g)
    (h : stream = ((f :: fs).map RawFrame.bytes).flatten ++ rest) :
    receiveFrame stream = .ok (taken f, (fs.map RawFrame.bytes).flatten ++ rest) := by
  rw [h, List.map_cons, List.flatten_cons, List.append_assoc]
  exact receiveFrame_bytes (hfs f List.mem_cons_self) _

open ClientSocket

theorem receiveMessage_close (h : receiveFrame socket.stream = .ok (taken f, stream))
    (op : f.opcode = .close) (opcode : UInt8) (payload : Bytes) :
    receiveMessage accepts opcode payload socket = (.ok (taken f), answered socket [] stream) := by
  rw [receiveMessage]
  split
  · simp_all
  · simp_all [taken, Opcode.value, answered]

theorem receiveMessage_ping (h : receiveFrame socket.stream = .ok (taken f, stream))
    (op : f.opcode = .ping) (sent : accepts socket.sends = true) (opcode : UInt8) (payload : Bytes) :
    receiveMessage accepts opcode payload socket =
      receiveMessage accepts opcode payload (answered socket [f.payload] stream) := by
  rw [receiveMessage]
  split
  · simp_all
  · simp_all [taken, Opcode.value, answered, sendFrame, sendAll]

theorem receiveMessage_pong (h : receiveFrame socket.stream = .ok (taken f, stream))
    (op : f.opcode = .pong) (opcode : UInt8) (payload : Bytes) :
    receiveMessage accepts opcode payload socket =
      receiveMessage accepts opcode payload (answered socket [] stream) := by
  rw [receiveMessage]
  split
  · simp_all
  · simp_all [taken, Opcode.value, answered]

theorem receiveMessage_first (h : receiveFrame socket.stream = .ok (taken f, stream))
    (op : f.opcode.isData = true) (small : f.payload.length ≤ kMaxWebSocketMessageBytes) :
    receiveMessage accepts 0 [] socket =
      if f.final then (.ok (taken f), answered socket [] stream)
      else receiveMessage accepts f.opcode.value f.payload (answered socket [] stream) := by
  rw [receiveMessage]
  split
  · simp_all
  · rename_i hframe
    rw [h] at hframe
    cases hframe
    have hopen : ¬ f.payload.length > kMaxWebSocketMessageBytes - ([] : Bytes).length :=
      Nat.not_lt.mpr small
    cases hop : f.opcode <;> simp [hop, Opcode.isData] at op <;>
      simp [taken, hop, Opcode.value, answered] <;> split <;> simp_all

theorem receiveMessage_next (h : receiveFrame socket.stream = .ok (taken f, stream))
    (op : f.opcode = .continuation) (ho : o.isData = true)
    (small : (acc ++ f.payload).length ≤ kMaxWebSocketMessageBytes) :
    receiveMessage accepts o.value acc socket =
      if f.final then (.ok ⟨true, o.value, acc ++ f.payload⟩, answered socket [] stream)
      else receiveMessage accepts o.value (acc ++ f.payload) (answered socket [] stream) := by
  rw [receiveMessage]
  split
  · simp_all
  · rename_i hframe
    rw [h] at hframe
    cases hframe
    rw [List.length_append] at small
    have hopen : ¬ f.payload.length > kMaxWebSocketMessageBytes - acc.length := by omega
    have hbegun : o.value ≠ 0 := by cases o <;> simp [Opcode.isData, Opcode.value] at ho ⊢
    simp [taken, op, Opcode.value.eq_def Opcode.continuation, answered, hopen, hbegun]

theorem answered_answered (first second : List Bytes) (stream rest : Bytes) (socket : ClientSocket) :
    answered (answered socket first stream) second rest = answered socket (first ++ second) rest := by
  simp [answered, Nat.add_assoc]

/-- Every way to send a message is taken for it. -/
theorem Spelled.received (h : Spelled begun fs pings message) (hb : Begun begun)
    (hfs : ∀ f ∈ fs, Fits f) (hstream : socket.stream = (fs.map RawFrame.bytes).flatten ++ rest)
    (haccepts : ∀ i < pings.length, accepts (socket.sends + i) = true) :
    receiveMessage accepts (opcodeOf begun) (payloadOf begun) socket =
      (.ok message, answered socket pings rest) := by
  induction h generalizing socket with
  | close op => exact receiveMessage_close (receiveFrame_head hfs hstream) op _ _
  | @ping begun fs pings message f op spelled ih =>
    have hrest := @ih (answered socket [f.payload] _) hb (List.forall_mem_cons.mp hfs).2 rfl
      fun i hi => by
        have := haccepts (i + 1) (Nat.succ_lt_succ hi)
        rwa [Nat.add_comm i, ← Nat.add_assoc] at this
    rw [answered_answered] at hrest
    exact (receiveMessage_ping (receiveFrame_head hfs hstream) op
      (haccepts 0 (Nat.succ_pos _)) _ _).trans hrest
  | pong op spelled ih =>
    have hrest := @ih (answered socket [] _) hb (List.forall_mem_cons.mp hfs).2 rfl haccepts
    rw [answered_answered] at hrest
    exact (receiveMessage_pong (receiveFrame_head hfs hstream) op _ _).trans hrest
  | whole op fin =>
    refine (receiveMessage_first (receiveFrame_head hfs hstream) op
      (hfs _ List.mem_cons_self).small).trans ?_
    rw [if_pos fin]
    rfl
  | @first fs pings message f op fin spelled ih =>
    have hsmall := (hfs f List.mem_cons_self).small
    have hrest := @ih (answered socket [] _) (.of op hsmall)
      (List.forall_mem_cons.mp hfs).2 rfl haccepts
    rw [answered_answered] at hrest
    refine (receiveMessage_first (receiveFrame_head hfs hstream) op hsmall).trans ?_
    rw [if_neg (by simp [fin])]
    exact hrest
  | @middle acc o fs pings message f op fin small spelled ih =>
    have ho := hb.data o acc rfl
    have hrest := @ih (answered socket [] _) (.of ho small)
      (List.forall_mem_cons.mp hfs).2 rfl haccepts
    rw [answered_answered] at hrest
    refine (receiveMessage_next (receiveFrame_head hfs hstream) op ho small).trans ?_
    rw [if_neg (by simp [fin])]
    exact hrest
  | last op fin small =>
    refine (receiveMessage_next (receiveFrame_head hfs hstream) op (hb.data _ _ rfl) small).trans ?_
    rw [if_pos fin]
    rfl

theorem Received.step {begun' : Option (Opcode × Bytes)} {pings : List Bytes} (hf : Fits f)
    (hstream : socket.stream = f.bytes ++ stream)
    (haccepts : ∀ i < pings.length, accepts (socket.sends + i) = true)
    (hstep : ∀ {fs later}, Spelled begun' fs later message →
      Spelled begun (f :: fs) (pings ++ later) message)
    (h : Received accepts begun' (answered socket pings stream) message socket') :
    Received accepts begun socket message socket' := by
  obtain ⟨fs, later, rest, hspelled, hfs, hrest, hlater, rfl⟩ := h
  refine ⟨f :: fs, pings ++ later, rest, hstep hspelled, List.forall_mem_cons.mpr ⟨hf, hfs⟩,
    ?_, ?_, ?_⟩
  · rw [hstream, show stream = _ from hrest, List.map_cons, List.flatten_cons, List.append_assoc]
  · intro i hi
    by_cases hfirst : i < pings.length
    · exact haccepts i hfirst
    · have := hlater (i - pings.length) (by rw [List.length_append] at hi; omega)
      rw [← this]
      exact congrArg accepts (by simp only [answered]; omega)
  · exact answered_answered _ _ _ _ _

theorem Received.one (hf : Fits f) (hstream : socket.stream = f.bytes ++ stream)
    (h : Spelled begun [f] [] message) :
    Received accepts begun socket message (answered socket [] stream) :=
  ⟨[f], [], stream, h, by simpa using hf, by simpa using hstream, by simp, rfl⟩

theorem value_injective {op op' : Opcode} (h : op.value = op'.value) : op = op' := by
  cases op <;> cases op' <;> first | rfl | simp [Opcode.value] at h

/-- What is left of the opcodes for a frame that goes into a message. -/
theorem data_cases (hb : Begun begun) (hclose : f.opcode.value ≠ 0x8) (hping : f.opcode.value ≠ 0x9)
    (hpong : f.opcode.value ≠ 0xA) (hnone : ¬ (f.opcode.value = 0 ∧ opcodeOf begun = 0))
    (hsome : ¬ (f.opcode.value ≠ 0 ∧ opcodeOf begun ≠ 0)) :
    begun = none ∧ f.opcode.isData = true ∧ f.opcode.value ≠ 0 ∨
      ∃ o acc, begun = some (o, acc) ∧ f.opcode = .continuation := by
  cases begun with
  | none =>
    left
    cases hop : f.opcode <;>
      simp [hop, Opcode.value, opcodeOf, Opcode.isData] at hclose hping hpong hnone ⊢
  | some message =>
    have ho : message.1.value ≠ 0 := by
      have := hb.data message.1 message.2 rfl
      cases hop : message.1 <;> simp [hop, Opcode.isData, Opcode.value] at this ⊢
    refine .inr ⟨message.1, message.2, rfl, value_injective ?_⟩
    by_contra hne
    exact hsome ⟨hne, ho⟩

theorem answered_nil (socket : ClientSocket) (stream : Bytes) :
    answered socket [] stream = { socket with stream := stream } := by
  simp [answered]

theorem answered_of_sent {payload : Bytes}
    (h : (sendFrame accepts 0xA payload { socket with stream := stream }).1 = true) :
    accepts socket.sends = true ∧
      (sendFrame accepts 0xA payload { socket with stream := stream }).2 =
        answered socket [payload] stream := by
  unfold sendFrame sendAll at *
  split at h
  · rename_i haccepts
    exact ⟨haccepts, by rw [if_pos haccepts]; rfl⟩
  · cases h

/-- What the relay takes for a message is one that its client has spelled out. -/
theorem receiveMessage_received {opcode : UInt8} {payload : Bytes} (hb : Begun begun)
    (hopcode : opcodeOf begun = opcode) (hpayload : payloadOf begun = payload)
    (h : receiveMessage accepts opcode payload socket = (.ok message, socket')) :
    Received accepts begun socket message socket' := by
  fun_induction receiveMessage accepts opcode payload socket generalizing begun with
  | case1 | case4 | case6 | case7 | case8 => cases h
  | case2 opcode payload socket frame stream hframe left =>
    rename_i hclose
    obtain ⟨f, hf, rfl, hstream⟩ := receiveFrame_written hframe
    simp only [Prod.mk.injEq, Except.ok.injEq] at h
    obtain ⟨rfl, rfl⟩ := h
    have hleft : answered socket [] stream = left := answered_nil socket stream
    exact hleft ▸ Received.one hf hstream (.close (value_injective hclose))
  | case3 opcode payload socket frame stream hframe left _ hping pong hsent =>
    rename_i ih
    obtain ⟨f, hf, rfl, hstream⟩ := receiveFrame_written hframe
    obtain ⟨haccepts, hpong⟩ := answered_of_sent hsent
    have hrest := ih hb hopcode hpayload h
    rw [show pong.2 = _ from hpong] at hrest
    refine Received.step hf hstream (fun i hi => ?_) (.ping (value_injective hping)) hrest
    rw [Nat.lt_one_iff.mp hi]
    exact haccepts
  | case5 opcode payload socket frame stream hframe left _ _ hpong =>
    rename_i ih
    obtain ⟨f, hf, rfl, hstream⟩ := receiveFrame_written hframe
    have hrest := ih hb hopcode hpayload h
    rw [show left = _ from (answered_nil socket stream).symm] at hrest
    exact Received.step hf hstream (by simp) (.pong (value_injective hpong)) hrest
  | case9 opcode payload socket frame stream hframe left hclose hping hpong hnone hsome
      value hopen whole =>
    rename_i hfinal
    obtain ⟨f, hf, rfl, hstream⟩ := receiveFrame_written hframe
    subst hopcode hpayload
    simp only [Prod.mk.injEq, Except.ok.injEq] at h
    obtain ⟨rfl, rfl⟩ := h
    have hleft : answered socket [] stream = left := answered_nil socket stream
    rw [← hleft]
    refine Received.one hf hstream ?_
    obtain ⟨rfl, hdata, hvalue⟩ | ⟨o, acc, rfl, hnext⟩ :=
      data_cases hb hclose hping hpong hnone hsome
    · have htaken : taken f = ⟨true, value, whole⟩ := by
        simp only [value, dif_neg (show ¬ (taken f).opcode = 0 from hvalue)]
        exact congrArg (WebSocketFrame.mk · _ _) hfinal
      exact htaken ▸ .whole hdata hfinal
    · have hvalue : value = o.value := dif_pos (congrArg Opcode.value hnext)
      rw [hvalue]
      exact .last hnext hfinal (hb.joined hopen)
  | case10 opcode payload socket frame stream hframe left hclose hping hpong hnone hsome
      value hopen whole hfinal =>
    rename_i ih
    obtain ⟨f, hf, rfl, hstream⟩ := receiveFrame_written hframe
    subst hopcode hpayload
    have hfinal : f.final = false := (Bool.not_eq_true _).mp hfinal
    have hleft : left = answered socket [] stream := (answered_nil socket stream).symm
    obtain ⟨rfl, hdata, hvalue⟩ | ⟨o, acc, rfl, hnext⟩ :=
      data_cases hb hclose hping hpong hnone hsome
    · have hopcode : value = f.opcode.value := dif_neg hvalue
      have hrest := ih (.of hdata hf.small) hopcode.symm rfl h
      rw [hleft] at hrest
      exact Received.step hf hstream (by simp) (.first hdata hfinal) hrest
    · have hsmall := hb.joined hopen
      have hopcode : value = o.value := dif_pos (congrArg Opcode.value hnext)
      have hrest := ih (.of (hb.data o acc rfl) hsmall) hopcode.symm rfl h
      rw [hleft] at hrest
      exact Received.step hf hstream (by simp) (.middle hnext hfinal hsmall) hrest

/-- The relay gets a message, with every ping before it answered, just where its client has
spelled the message out, and goes on behind its last frame. -/
theorem receiveMessage_iff (accepts : Nat → Bool) (socket socket' : ClientSocket)
    (message : WebSocketFrame) :
    receiveMessage accepts 0 [] socket = (.ok message, socket') ↔
      Received accepts none socket message socket' := by
  have hb : Begun none := ⟨fun _ _ h => (Option.some_ne_none _ h.symm).elim, Nat.zero_le _⟩
  constructor
  · exact receiveMessage_received hb rfl rfl
  · rintro ⟨fs, pings, rest, hspelled, hfs, hstream, haccepts, rfl⟩
    exact hspelled.received hb hfs hstream haccepts

end Messages

section Sessions

/-- The client has sent the messages one after another. -/
inductive Conversation : Bytes → List WebSocketFrame → Bytes → Prop where
  | done : Conversation rest [] rest
  | message (spelled : Spelled none fs pings message) (fits : ∀ f ∈ fs, Fits f)
      (later : Conversation stream messages rest) :
      Conversation ((fs.map RawFrame.bytes).flatten ++ stream) (message :: messages) rest

/-- The video messages among those of a client. -/
def videos (messages : List WebSocketFrame) : List Bytes :=
  (messages.filter (·.opcode == 0x2)).map WebSocketFrame.payload

/-- What the LAN sender takes is read out of these messages, one out of each. -/
def ReadFrom (payloads : List Bytes) (taken : List LocalVideoMessage) : Prop :=
  List.Forall₂ (fun payload video => parseLocalVideoMessage payload = .ok video) payloads taken

def takenOf (c : RelayClient) : List LocalVideoMessage := c.sender.taken

open RelayClient

variable {w : World} {t : Turn} {c c' : RelayClient} {frame : WebSocketFrame} {ending : Ending}
  {send : Nat → Bytes → Int} {payload : Bytes} {counters : VideoCounters} {sender : LanSender}

theorem thenIf_ends {sent : Bool × RelayClient} {next : RelayClient → Option Ending × RelayClient}
    (h : ∀ c, (next c).1.isSome = true) : (thenIf sent next).1.isSome = true := by
  unfold thenIf
  split
  · exact h sent.2
  · rfl

theorem sendPackets_taken (call : Nat) (packets : List Bytes) :
    (LanSender.sendPackets send call packets sender).2.taken = sender.taken := by
  induction packets generalizing call sender with
  | nil => rfl
  | cons packet packets ih =>
    rw [LanSender.sendPackets]
    split
    · rfl
    · exact ih _

theorem sendAccessUnit_taken (video : LocalVideoMessage) :
    (sender.sendAccessUnit send video).2.taken =
      sender.taken ++ if (sender.sendAccessUnit send video).1 then [video] else [] := by
  unfold LanSender.sendAccessUnit
  split
  · exact (List.append_nil _).symm
  · dsimp only
    split
    · exact (List.append_nil _).symm
    · split
      · simp only [sendPackets_taken, if_true]
      · simp only [sendPackets_taken, Bool.false_eq_true, if_false, List.append_nil]

theorem runVideoMessage_taken :
    (∃ video, parseLocalVideoMessage payload = .ok video ∧
      (runVideoMessage send payload counters sender).2.2.taken = sender.taken ++ [video]) ∨
      (runVideoMessage send payload counters sender).2.2.taken = sender.taken ∧
        ∃ message, (runVideoMessage send payload counters sender).1 = .error message := by
  unfold runVideoMessage
  split
  · exact .inr ⟨rfl, _, rfl⟩
  · rename_i video hvideo
    have htaken := @sendAccessUnit_taken send sender video
    dsimp only
    cases hsent : (sender.sendAccessUnit send video).1 with
    | true =>
      rw [hsent] at htaken
      exact .inl ⟨video, hvideo, htaken⟩
    | false =>
      rw [hsent] at htaken
      exact .inr ⟨htaken.trans (List.append_nil _), _, rfl⟩

/-- The LAN sender has taken what there is of video in a message, or it has taken nothing and the
relay does not go on. -/
theorem onMessage_taken (accepts : Nat → Bool) (t : Turn) (frame : WebSocketFrame)
    (c : RelayClient) :
    (∃ taken, (onMessage accepts t frame c).2.sender.taken = c.sender.taken ++ taken ∧
        ReadFrom (videos [frame]) taken) ∨
      (onMessage accepts t frame c).2.sender.taken = c.sender.taken ∧
        (onMessage accepts t frame c).1.isSome = true := by
  have hsend (opcode : UInt8) (payload : Bytes) (ending : Option Ending) (c : RelayClient) :
      takenOf (thenIf (c.sendFrame accepts opcode payload) fun c => (ending, c)).2 =
        c.sender.taken :=
    thenIf_keeps takenOf fun _ => rfl
  unfold onMessage
  split
  · exact .inr ⟨hsend _ _ _ _, thenIf_ends fun _ => rfl⟩
  · split
    · rename_i htext
      have hnone : videos [frame] = [] := by simp [videos, htext]
      split
      · rw [hnone]
        exact .inl ⟨[], (hsend _ _ _ _).trans (List.append_nil _).symm, .nil⟩
      · split
        · exact .inr ⟨thenIf_keeps takenOf fun c => hsend _ _ _ c,
            thenIf_ends fun _ => thenIf_ends fun _ => rfl⟩
        · exact .inr ⟨rfl, rfl⟩
    · split
      · exact .inr ⟨rfl, rfl⟩
      · rename_i hbinary
        have hone : videos [frame] = [frame.payload] := by simp [videos, not_not.mp hbinary]
        have hrun := @runVideoMessage_taken t.send frame.payload c.counters c.sender
        rw [hone]
        dsimp only
        split
        · obtain ⟨video, hvideo, htaken⟩ | ⟨htaken, -⟩ := hrun
          · exact .inl ⟨[video], htaken, .cons hvideo .nil⟩
          · exact .inr ⟨htaken, rfl⟩
        · rename_i hsent
          obtain ⟨video, hvideo, htaken⟩ | ⟨-, message, hfails⟩ := hrun
          · refine .inl ⟨[video], Eq.trans ?_ htaken, .cons hvideo .nil⟩
            have hdue (c : RelayClient) : takenOf (if t.telemetryDue = true then
                thenIf (c.sendText accepts (c.telemetryText t)) fun c => (none, c)
                else (none, c)).2 = c.sender.taken := by
              split
              · exact hsend _ _ _ c
              · rfl
            split
            · exact thenIf_keeps takenOf hdue
            · exact hdue _
          · rw [hfails] at hsent
            cases hsent

theorem Conversation.of_received {accepts : Nat → Bool} {socket socket' : ClientSocket}
    {message : WebSocketFrame} {messages : List WebSocketFrame} {rest : Bytes}
    (h : Received accepts none socket message socket')
    (later : Conversation socket'.stream messages rest) :
    Conversation socket.stream (message :: messages) rest := by
  obtain ⟨fs, pings, stream, hspelled, hfs, hstream, -, rfl⟩ := h
  rw [hstream]
  exact .message hspelled hfs later

theorem videos_cons (message : WebSocketFrame) (messages : List WebSocketFrame) :
    videos (message :: messages) = videos [message] ++ videos messages := by
  rw [videos, ← List.singleton_append, List.filter_append, List.map_append]
  rfl

/-- What the LAN sender has taken over a stretch of `RunClient`, of what its client sends. -/
def Relays (stream : Bytes) (taken taken' : List LocalVideoMessage) : Prop :=
  ∃ messages added rest, Conversation stream messages rest ∧ taken' = taken ++ added ∧
    ReadFrom (videos messages) added

theorem Relays.nothing (stream : Bytes) (taken : List LocalVideoMessage) :
    Relays stream taken taken :=
  ⟨[], [], stream, .done, (List.append_nil _).symm, .nil⟩

theorem Relays.message {accepts : Nat → Bool} {socket socket' : ClientSocket}
    {taken added taken' : List LocalVideoMessage} (h : Received accepts none socket frame socket')
    (hvideos : ReadFrom (videos [frame]) added)
    (later : Relays socket'.stream (taken ++ added) taken') : Relays socket.stream taken taken' := by
  obtain ⟨messages, more, rest, hconversation, rfl, hlater⟩ := later
  refine ⟨frame :: messages, added ++ more, rest, .of_received h hconversation,
    List.append_assoc _ _ _, ?_⟩
  rw [videos_cons frame messages]
  exact List.rel_append hvideos hlater

theorem serve_relays (turn : Nat) (h : serve w turn c = (ending, c')) :
    Relays c.socket.stream c.sender.taken c'.sender.taken := by
  fun_induction serve w turn c with
  | case1 =>
    cases h
    exact .nothing _ _
  | case2 =>
    cases h
    exact .nothing _ _
  | case3 turn c _ _ frame socket hmessage ending' c'' hnext =>
    cases h
    have hreceived := (receiveMessage_iff _ _ _ _).mp hmessage
    have htaken := onMessage_taken w.accepts (w.turns turn) frame (c.received (w.turns turn) socket)
    rw [hnext] at htaken
    obtain ⟨added, htaken, hvideos⟩ | ⟨htaken, -⟩ := htaken
    · exact .message hreceived hvideos (htaken ▸ .nothing _ _)
    · exact htaken ▸ .nothing _ _
  | case4 turn c _ _ frame socket hmessage c'' hnext =>
    rename_i ih
    have hreceived := (receiveMessage_iff _ _ _ _).mp hmessage
    have hstream := onMessage_stream w.accepts (w.turns turn) frame
      (c.received (w.turns turn) socket)
    have htaken := onMessage_taken w.accepts (w.turns turn) frame (c.received (w.turns turn) socket)
    rw [hnext] at htaken hstream
    obtain ⟨added, htaken, hvideos⟩ | ⟨-, hends⟩ := htaken
    · have hlater := ih h
      rw [htaken, hstream] at hlater
      exact .message hreceived hvideos hlater
    · cases hends

end Sessions

section Requests

variable {requestLine request line name : Bytes} {headers fields : List (Bytes × Bytes)}
  {arrivals behind : List Bytes}

/-- The name and the value that a line of a request gives. -/
def headerOf (line : Bytes) : Option (Bytes × Bytes) :=
  if 0x3a ∈ line then
    some (lower (trim (line.takeWhile (· ≠ 0x3a))), trim ((line.dropWhile (· ≠ 0x3a)).drop 1))
  else none

/-- The lines of a request in front of its blank one. -/
def headLines (request : Bytes) : List Bytes := (lines request).takeWhile (· ≠ [])

/-- No name is empty, and none is there twice. -/
structure Distinct (headers : List (Bytes × Bytes)) : Prop where
  named : ∀ header ∈ headers, header.1 ≠ []
  once : (headers.map Prod.fst).Nodup

/-- Every line behind the first gives a header. -/
structure Gives (request requestLine : Bytes) (headers : List (Bytes × Bytes)) : Prop
    extends Distinct headers where
  lines : ∃ headerLines, headLines request = requestLine :: headerLines ∧
    headerLines.map headerOf = headers.map some

/-- What a request must say for the relay to answer it. -/
structure Upgrades (expectedOrigin request key : Bytes) (headers : List (Bytes × Bytes)) : Prop where
  gives : Gives request (ascii "GET /capture HTTP/1.1") headers
  upgrade : ∃ value, (ascii "upgrade", value) ∈ headers ∧ lower value = ascii "websocket"
  connection : ∃ value, (ascii "connection", value) ∈ headers ∧ ascii "upgrade" <:+: lower value
  version : (ascii "sec-websocket-version", ascii "13") ∈ headers
  origin : (ascii "origin", expectedOrigin) ∈ headers
  key : (ascii "sec-websocket-key", key) ∈ headers

/-- The request is all that has arrived once its blank line has. -/
structure Arrives (arrivals : List Bytes) (request : Bytes) (behind : List Bytes) : Prop where
  received : ∃ received, arrivals = received ++ behind ∧ request = received.flatten ∧
    ¬ crlf ++ crlf <:+: received.dropLast.flatten
  blank : crlf ++ crlf <:+: request
  small : request.length ≤ kMaxHandshakeBytes

theorem receiveHandshake_whole (h : crlf ++ crlf <:+: request) (arrivals : List Bytes) :
    receiveHandshake request arrivals = .ok (request, arrivals) := by
  rw [receiveHandshake.eq_def, if_pos]
  rw [← Option.ne_none_iff_isSome]
  exact fun hnone => findFirst_isSome.mp hnone h

theorem receiveHandshake_partial {begun first : Bytes} (hbegun : ¬ crlf ++ crlf <:+: begun)
    (h : receiveHandshake begun (first :: arrivals) = .ok (request, behind)) :
    (begun ++ first).length ≤ kMaxHandshakeBytes ∧
      receiveHandshake (begun ++ first) arrivals = .ok (request, behind) := by
  rw [receiveHandshake.eq_def, findFirst_isSome.mpr hbegun, if_neg (by decide)] at h
  cases first with
  | nil => cases h
  | cons b first =>
    dsimp only at h
    split at h
    · cases h
    · rename_i hsmall
      exact ⟨Nat.not_lt.mp hsmall, h⟩

theorem receiveHandshake_arrives {begun : Bytes} (hbegun : ¬ crlf ++ crlf <:+: begun)
    (h : receiveHandshake begun arrivals = .ok (request, behind)) :
    (∃ received, arrivals = received ++ behind ∧ request = begun ++ received.flatten ∧
      ¬ crlf ++ crlf <:+: begun ++ received.dropLast.flatten) ∧
      crlf ++ crlf <:+: request ∧ request.length ≤ kMaxHandshakeBytes := by
  induction arrivals generalizing begun with
  | nil =>
    rw [receiveHandshake, findFirst_isSome.mpr hbegun] at h
    cases h
  | cons first arrivals ih =>
    obtain ⟨hsmall, h⟩ := receiveHandshake_partial hbegun h
    by_cases hblank : crlf ++ crlf <:+: begun ++ first
    · rw [receiveHandshake_whole hblank] at h
      cases h
      exact ⟨⟨[first], rfl, by simp, by simpa using hbegun⟩, hblank, hsmall⟩
    · obtain ⟨⟨received, rfl, rfl, hbefore⟩, hrequest⟩ := ih hblank h
      refine ⟨⟨first :: received, rfl, by simp, ?_⟩, hrequest⟩
      cases received with
      | nil => exact absurd (by simpa using hrequest.1) hblank
      | cons second received => simpa using hbefore

theorem findFirst_colon {text : Bytes} {separator : Nat} (h : findFirst [0x3a] text = some separator) :
    headerOf text = some (lower (trim (text.take separator)), trim (text.drop (separator + 1))) := by
  obtain ⟨-, htake, hdrop, hget⟩ := findFirst_some h
  rw [headerOf, if_pos (List.mem_of_getElem? hget), ← htake, ← hdrop, List.drop_drop]

theorem headLines_none (h : findFirst crlf request = none) : headLines request = [] := by
  rw [headLines, lines_of_none h, List.takeWhile_nil]

theorem headLines_some {stop : Nat} (h : findFirst crlf request = some stop) :
    headLines request = if request.take stop = [] then []
      else request.take stop :: headLines (request.drop (stop + 2)) := by
  rw [headLines, (lines_of_some h).2, List.takeWhile_cons, headLines]
  split <;> simp_all

theorem Distinct.append {value : Bytes} (h : Distinct headers)
    (hnew : ¬ (name = [] ∨ headers.any (fun header => header.1 == name) = true)) :
    Distinct (headers ++ [(name, value)]) := by
  obtain ⟨hne, hnone⟩ := not_or.mp hnew
  refine ⟨List.forall_mem_append.mpr ⟨h.named, by simpa using hne⟩, ?_⟩
  rw [List.map_append, List.nodup_append]
  refine ⟨h.once, by simp, fun first hfirst second hsecond heq => hnone ?_⟩
  obtain ⟨header, hheader, rfl⟩ := List.mem_map.mp hfirst
  rw [List.any_eq_true]
  exact ⟨header, hheader, by simpa [heq] using hsecond⟩

/-- `after` and `fields` are what the loop makes of the lines in front of it; `before` and `headers`
are what it has by then. -/
structure Parsed (before after : Option Bytes) (headers fields : List (Bytes × Bytes))
    (lines : List Bytes) : Prop where
  distinct : Distinct fields
  first : (before.toList ++ lines).head? = after
  later : headers.map some ++ (before.toList ++ lines).tail.map headerOf = fields.map some

theorem Parsed.nil (h : Distinct headers) (before : Option Bytes) :
    Parsed before before headers headers [] := by
  refine ⟨h, ?_, ?_⟩ <;> cases before <;> simp

theorem parseHeaders_lines {before after : Option Bytes} (hdistinct : Distinct headers)
    (h : parseHeaders before headers request = .ok (after, fields)) :
    Parsed before after headers fields (headLines request) := by
  fun_induction parseHeaders before headers request with
  | case1 before headers request hnone =>
    cases h
    exact headLines_none hnone ▸ .nil hdistinct _
  | case2 before headers request stop hsome line hblank =>
    cases h
    exact (headLines_some hsome).trans (if_pos hblank) ▸ .nil hdistinct _
  | case3 headers request stop hsome line hline ih =>
    rw [(headLines_some hsome).trans (if_neg hline)]
    exact ⟨(ih hdistinct h).distinct, (ih hdistinct h).first, (ih hdistinct h).later⟩
  | case4 => cases h
  | case5 => cases h
  | case6 before headers request stop hsome line hline hbefore separator hcolon name value hnew ih =>
    obtain ⟨requestLine, rfl⟩ := Option.ne_none_iff_exists'.mp hbefore
    have hheader : headerOf (request.take stop) = some (name, value) := findFirst_colon hcolon
    obtain ⟨hfields, hfirst, hlater⟩ := ih (hdistinct.append hnew) h
    rw [(headLines_some hsome).trans (if_neg hline)]
    refine ⟨hfields, hfirst, hlater ▸ ?_⟩
    simp [hheader]

theorem requireHeader_ok {value : Bytes} (h : requireHeader headers name = .ok value) :
    (name, value) ∈ headers := by
  unfold requireHeader at h
  split at h
  · cases h
  · rename_i header hfind
    cases h
    have hname := List.find?_some hfind
    rw [beq_iff_eq] at hname
    exact hname ▸ List.mem_of_find?_eq_some hfind

/-- The answer to a request with a key. -/
def switching (key : Bytes) : Bytes :=
  ascii "HTTP/1.1 101 Switching Protocols\r\n" ++ (ascii "Upgrade: websocket\r\n" ++
    (ascii "Connection: Upgrade\r\n" ++ (ascii "Sec-WebSocket-Accept: " ++
    (createWebSocketAccept key ++ (crlf ++ crlf)))))

theorem performHandshake_upgrades {expectedOrigin response : Bytes}
    (h : performHandshake expectedOrigin arrivals = .ok (response, behind)) :
    ∃ request key headers, Arrives arrivals request behind ∧
      Upgrades expectedOrigin request key headers ∧ response = switching key := by
  obtain ⟨⟨request, left⟩, hrequest, h⟩ := bind_ok h
  obtain ⟨⟨requestLine, headers⟩, hheaders, h⟩ := bind_ok h
  obtain ⟨hline, h⟩ := guard_ok h
  obtain ⟨upgrade, hupgrade, h⟩ := bind_ok h
  obtain ⟨hwebsocket, h⟩ := guard_ok h
  obtain ⟨connection, hconnection, h⟩ := bind_ok h
  obtain ⟨hinside, h⟩ := guard_ok h
  obtain ⟨version, hversion, h⟩ := bind_ok h
  obtain ⟨hthirteen, h⟩ := guard_ok h
  obtain ⟨origin, horigin, h⟩ := bind_ok h
  obtain ⟨hexpected, h⟩ := guard_ok h
  obtain ⟨key, hkey, h⟩ := bind_ok h
  cases h
  obtain ⟨hreceived, hblank, hsmall⟩ := receiveHandshake_arrives (by decide) hrequest
  obtain ⟨hdistinct, hfirst, hlines⟩ := parseHeaders_lines ⟨by simp, by simp⟩ hheaders
  refine ⟨request, key, headers, ⟨hreceived, hblank, hsmall⟩, ⟨⟨hdistinct, ?_⟩, ?_, ?_, ?_, ?_, ?_⟩,
    rfl⟩
  · cases hhead : headLines request with
    | nil =>
      rw [hhead] at hfirst
      exact absurd (hfirst ▸ not_not.mp hline) (by decide)
    | cons first headerLines =>
      rw [hhead] at hfirst hlines
      rw [← show some first = requestLine from hfirst] at hline
      exact ⟨headerLines, congrArg (· :: headerLines) (not_not.mp hline), hlines⟩
  · exact ⟨upgrade, requireHeader_ok hupgrade, not_not.mp hwebsocket⟩
  · exact ⟨connection, requireHeader_ok hconnection, not_not.mp (mt findFirst_isSome.mpr hinside)⟩
  · exact not_not.mp hthirteen ▸ requireHeader_ok hversion
  · exact not_not.mp hexpected ▸ requireHeader_ok horigin
  · exact requireHeader_ok hkey

end Requests

section Runs

open RelayClient

variable {w : World}

/-- The client has come from the expected origin and has told the token; `stream` is what it sends
behind that. -/
def Admitted (accepts : Nat → Bool) (expectedOrigin token : Bytes) (arrivals : List Bytes)
    (stream : Bytes) : Prop :=
  ∃ request behind key headers authentication socket, Arrives arrivals request behind ∧
    Upgrades expectedOrigin request key headers ∧
    Received accepts none { stream := behind.flatten, sends := 1, sent := [switching key] }
      authentication socket ∧
    authentication.opcode = 0x1 ∧ isExpectedAuthMessage authentication.payload token = true ∧
    socket.stream = stream

theorem greet_keeps {α : Type} (part : RelayClient → α)
    (h : ∀ text c, part (c.sendText w.accepts text).2 = part c) : part (greet w c).2 = part c := by
  refine (thenIf_keeps part fun c => ?_).trans (h _ c)
  split
  · exact (thenIf_keeps part fun _ => rfl).trans (h _ c)
  · rfl

theorem runClient_relays (w : World) (expectedOrigin token : Bytes) (arrivals : List Bytes)
    (sender : LanSender) :
    (runClient w expectedOrigin token arrivals sender).2.sender.taken = sender.taken ∨
      ∃ stream, Admitted w.accepts expectedOrigin token arrivals stream ∧ Relays stream sender.taken
        (runClient w expectedOrigin token arrivals sender).2.sender.taken := by
  unfold runClient
  split
  · exact .inl rfl
  · rename_i response behind hhandshake
    dsimp only
    split
    · exact .inl rfl
    · rename_i hsent
      split
      · exact .inl rfl
      · rename_i authentication socket hmessage
        split
        · exact .inl rfl
        · rename_i hauthentication
          obtain ⟨hopcode, htoken⟩ := not_or.mp hauthentication
          obtain ⟨request, key, headers, harrives, hupgrades, rfl⟩ :=
            performHandshake_upgrades hhandshake
          have hsocket : (ClientSocket.sendAll w.accepts (switching key)
              { stream := behind.flatten }).2 =
              { stream := behind.flatten, sends := 1, sent := [switching key] } := by
            unfold ClientSocket.sendAll at hsent ⊢
            split <;> simp_all
          rw [hsocket] at hmessage
          refine .inr ⟨socket.stream, ⟨request, behind, key, headers, authentication, socket,
            harrives, hupgrades, (receiveMessage_iff _ _ _ _).mp hmessage, not_not.mp hopcode,
            by simpa using htoken, rfl⟩, ?_⟩
          have hstream := @greet_keeps w
            { socket := socket, authenticated := true, sender := sender } _ stream
            fun text c => sendFrame_stream w.accepts 0x1 text c
          have htaken := @greet_keeps w
            { socket := socket, authenticated := true, sender := sender } _ takenOf fun _ _ => rfl
          split
          · rename_i hgreet
            rw [hgreet] at htaken
            exact (show _ = sender.taken from htaken) ▸ .nothing _ _
          · rename_i c hgreet
            rw [hgreet] at hstream htaken
            have hserved := serve_relays 1 (Prod.eta (serve w 1 c)).symm
            rwa [show c.socket.stream = socket.stream from hstream,
              show c.sender.taken = sender.taken from htaken] at hserved

/-- Nothing reaches the LAN but what an admitted client sends: its video messages, each as it was
spelled out and in the order sent, from the first one on and with none left out. -/
theorem run_relays (w : World) (expectedOrigin token : Bytes) (arrivals : List Bytes)
    (sender : LanSender) (stopping : Bool) :
    (run w expectedOrigin token arrivals sender stopping).sender.taken = sender.taken ∨
      ∃ stream, Admitted w.accepts expectedOrigin token arrivals stream ∧ Relays stream sender.taken
        (run w expectedOrigin token arrivals sender stopping).sender.taken := by
  have hrun : (run w expectedOrigin token arrivals sender stopping).sender =
      (runClient w expectedOrigin token arrivals sender).2.sender := by
    unfold run
    split
    · rename_i hclient
      rw [hclient]
      dsimp only
      split
      · split <;> rfl
      · rfl
    · rename_i hclient
      rw [hclient]
  rw [hrun]
  exact runClient_relays w expectedOrigin token arrivals sender

def sampleRequest : Bytes :=
  ascii "GET /capture HTTP/1.1\r\nHost: 127.0.0.1\r\nConnection: keep-alive, Upgrade\r\n" ++
    ascii "Upgrade: websocket\r\nsec-websocket-version: 13\r\nOrigin:  chrome-extension://a\r\n" ++
    ascii "Sec-WebSocket-Key: dGhlIHNhbXBsZSBub25jZQ==\r\n\r\n"

def sampleAuth : RawFrame :=
  ⟨true, .text, some [1, 2, 3, 4], .short, ascii "\x7b\"type\":\"auth\",\"token\":\"t\"\x7d"⟩

/-- A key frame of one byte, behind its header. -/
def sampleVideo : RawFrame :=
  ⟨true, .binary, some [5, 6, 7, 8], .short, [0x48, 0x57, 0x4C, 0x31, 1, 1, 0, 24, 0, 0, 0, 7, 0, 0,
    0, 1, 0, 0, 0, 0, 0, 0, 3, 232, 0x65]⟩

/-- The request comes in two parts, and then the client authenticates and sends its frame. -/
example : (run ⟨fun _ => true, fun _ => { send := fun _ packet => packet.length }⟩
    (ascii "chrome-extension://a") (ascii "t")
    [sampleRequest.take 40, sampleRequest.drop 40, sampleAuth.bytes, sampleVideo.bytes]
    { connected := true, sessionShort := 5, videoSocket := some 3 } false).sender.taken =
      [⟨true, 7, 1000, [0x65]⟩] := by
  decide +kernel

end Runs

end HarmonyScreen.Proofs.RelaySession
