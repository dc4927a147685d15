import HarmonyScreen.Extension.DirectDelivery
import HarmonyScreen.Lib.History
import HarmonyScreen.Proofs.VideoFormat

namespace HarmonyScreen.Proofs.Delivery
open Lib Receiver Extension DirectProtocol Capture

/-- The message of the chunk went out on that connection. -/
def sentOn (connection : Nat) (o : Output) : Prop := ∃ message, o.sent = some (connection, message)

/-- A key chunk went out on the connection, and every chunk since. -/
def Unbroken (connection : Nat) (outputs : List Output) : Prop :=
  ∃ earlier key later, outputs = earlier ++ key :: later ∧ key.type = "key" ∧
    ∀ o ∈ key :: later, sentOn connection o

/-- A delta chunk goes out only on the connection of an unbroken chain. -/
def Decodable (earlier : List Output) (o : Output) : Prop :=
  ∀ connection, sentOn connection o → o.type ≠ "key" → Unbroken connection earlier

/-- The messages sent for one encoder. -/
def sentBy (generation : Nat) (outputs : List Output) : List Bytes :=
  outputs.filterMap fun o => if o.generation = generation then o.sent.map (·.2) else none

/-- The sequence number a message carries. -/
def sequenceOf (message : Bytes) : Nat := Protocol.field message 12 4

theorem Unbroken.append {connection : Nat} {outputs : List Output} {o : Output}
    (h : Unbroken connection outputs) (ho : sentOn connection o) :
    Unbroken connection (outputs ++ [o]) := by
  obtain ⟨earlier, key, later, rfl, hkey, hall⟩ := h
  refine ⟨earlier, key, later ++ [o], by simp, hkey, ?_⟩
  intro p hp
  rw [← List.cons_append, List.mem_append, List.mem_singleton] at hp
  rcases hp with hp | rfl
  · exact hall p hp
  · exact ho

theorem Unbroken.key {connection : Nat} {o : Output} (outputs : List Output)
    (hkey : o.type = "key") (ho : sentOn connection o) : Unbroken connection (outputs ++ [o]) :=
  ⟨outputs, o, [], rfl, hkey, fun _ hp => List.mem_singleton.mp hp ▸ ho⟩

theorem sequenceOf_message {chunk : EncodedVideoChunk} {epoch : Number} {sequence : Nat}
    {message : Bytes}
    (h : createDirectVideoMessage chunk epoch (.integer sequence) = .ok message) :
    sequenceOf message = sequence := by
  obtain ⟨e, n, t, -, hn, -, -, -, hlt, -, rfl⟩ := createDirectVideoMessage_ok.mp h
  cases hn
  have hfields := VideoFormat.written_fields (if chunk.type = "key" then 1 else 0) e sequence
    chunk.byteLength t chunk.bytes
  exact hfields.2.2.2.2.2.1.trans (Nat.mod_eq_of_lt hlt)

/-- A chunk that could be sent is sent, or it is withheld and a key frame is required. -/
theorem deliver_cases {chunk : EncodedVideoChunk} {epoch : Number}
    {d : DirectDeliveryOrchestrator} (connected takes : Bool) (telemetry : DirectTelemetry)
    (h : ∃ message, createDirectVideoMessage chunk epoch (.integer d.sequence) = .ok message) :
    (∃ d' t', d.deliver chunk connected takes epoch telemetry = .ok (none, d', t') ∧
      d'.policy.keyFrameRequired = true ∧ d'.policy.awaitingKeyFrameDelivery = true ∧
      d'.sequence = d.sequence) ∨
    ∃ message t', d.deliver chunk connected takes epoch telemetry =
        .ok (some message,
          ⟨d.policy.onEncodedChunkDelivered chunk.type, (d.sequence + 1) % 2 ^ 32⟩, t') ∧
      createDirectVideoMessage chunk epoch (.integer d.sequence) = .ok message ∧
      (d.policy.awaitingKeyFrameDelivery = false ∨ chunk.type = "key") := by
  obtain ⟨message, hm⟩ := h
  have hsize : ¬ chunk.byteLength > directVideoMaxPayloadBytes := by
    obtain ⟨_, _, _, -, -, -, hsize, -⟩ := createDirectVideoMessage_ok.mp hm
    omega
  unfold DirectDeliveryOrchestrator.deliver
  rw [if_neg hsize]
  by_cases hcan : (!connected || !d.policy.canDeliverEncodedChunk chunk.type) = true
  · rw [if_pos hcan]
    exact .inl ⟨_, _, rfl, rfl, rfl, rfl⟩
  · rw [if_neg hcan, hm]
    cases takes with
    | false => exact .inl ⟨_, _, rfl, rfl, rfl, rfl⟩
    | true =>
      refine .inr ⟨message, _, rfl, rfl, ?_⟩
      cases ha : d.policy.awaitingKeyFrameDelivery with
      | false => exact .inl rfl
      | true => simp_all [DirectResyncPolicy.canDeliverEncodedChunk]

/-- What delivery keeps true of a capture. -/
structure Sound (s : Capture) : Prop where
  unbroken : s.delivery.policy.awaitingKeyFrameDelivery = false → s.recovering = false →
    Unbroken s.connection s.outputs
  deltas : History Decodable s.outputs
  numbered : (sentBy s.activeEncoderGeneration s.outputs).map sequenceOf =
    (List.range (sentBy s.activeEncoderGeneration s.outputs).length).map (· % 2 ^ 32)
  next : s.delivery.sequence = (sentBy s.activeEncoderGeneration s.outputs).length % 2 ^ 32
  current : ∀ o ∈ s.outputs, o.generation ≤ s.activeEncoderGeneration
  coming : s.delivery.policy.awaitingKeyFrameDelivery = true →
    s.delivery.policy.keyFrameRequired = true ∨ true ∈ s.encoder
  withheld : ∀ earlier o, s.outputs = earlier ++ [o] → o.sent = none →
    s.delivery.policy.awaitingKeyFrameDelivery = true

/-- What an operation that puts nothing out has to respect. -/
theorem Sound.of_same_outputs {s t : Capture} (hs : Sound s) (houtputs : t.outputs = s.outputs)
    (hgeneration : t.activeEncoderGeneration = s.activeEncoderGeneration)
    (hsequence : t.delivery.sequence = s.delivery.sequence)
    (hunbroken : t.delivery.policy.awaitingKeyFrameDelivery = false → t.recovering = false →
      s.delivery.policy.awaitingKeyFrameDelivery = false ∧ s.recovering = false ∧
        t.connection = s.connection)
    (hcoming : t.delivery.policy.awaitingKeyFrameDelivery = true →
      t.delivery.policy.keyFrameRequired = true ∨ true ∈ t.encoder)
    (hwaits : s.delivery.policy.awaitingKeyFrameDelivery = true →
      t.delivery.policy.awaitingKeyFrameDelivery = true) : Sound t where
  unbroken ha hr := by
    obtain ⟨ha, hr, hc⟩ := hunbroken ha hr
    rw [houtputs, hc]
    exact hs.unbroken ha hr
  deltas := by
    rw [houtputs]
    exact hs.deltas
  numbered := by
    rw [houtputs, hgeneration]
    exact hs.numbered
  next := by
    rw [houtputs, hgeneration, hsequence]
    exact hs.next
  current := by
    rw [houtputs, hgeneration]
    exact hs.current
  coming := hcoming
  withheld earlier o ho hsent := hwaits (hs.withheld earlier o (houtputs ▸ ho) hsent)

theorem Sound.started (epoch : Number) (connected : Bool) :
    Sound { sourceEpoch := epoch, connected := connected } where
  unbroken h := by simp at h
  deltas := .nil
  numbered := rfl
  next := rfl
  current o ho := by simp at ho
  coming _ := .inl rfl
  withheld earlier o h := by simp at h

theorem Sound.encodeFrame {s : Capture} (hs : Sound s) (frame : SourceFrame) :
    Sound (s.encodeFrame frame) := by
  unfold Capture.encodeFrame
  split
  · exact hs
  · dsimp only
    split
    · exact hs.of_same_outputs rfl rfl rfl (fun ha hr => ⟨ha, hr, rfl⟩)
        (fun _ => .inr (by simp_all)) id
    · refine hs.of_same_outputs rfl rfl rfl (fun ha hr => ⟨ha, hr, rfl⟩) (fun ha => ?_) id
      exact (hs.coming ha).imp_right (List.mem_append_left _)

theorem Sound.required {s t : Capture} (hs : Sound s)
    (hdelivery : t.delivery = (s.delivery.requireKeyFrame s.telemetry).1)
    (houtputs : t.outputs = s.outputs)
    (hgeneration : t.activeEncoderGeneration = s.activeEncoderGeneration) : Sound t := by
  have hawaiting : t.delivery.policy.awaitingKeyFrameDelivery = true := by rw [hdelivery]; rfl
  refine hs.of_same_outputs houtputs hgeneration (by rw [hdelivery]; rfl) (fun ha => ?_)
    (fun _ => .inl (by rw [hdelivery]; rfl)) (fun _ => hawaiting)
  rw [hawaiting] at ha
  cases ha

theorem sentBy_append (generation : Nat) (outputs : List Output) (o : Output) :
    sentBy generation (outputs ++ [o]) =
      sentBy generation outputs ++ sentBy generation [o] := List.filterMap_append

/-- A chunk that was not sent leaves a key frame required. -/
theorem Sound.drop {s t : Capture} (hs : Sound s) {type : String}
    (houtputs : t.outputs = s.outputs ++ [⟨s.activeEncoderGeneration, type, none⟩])
    (hgeneration : t.activeEncoderGeneration = s.activeEncoderGeneration)
    (hsequence : t.delivery.sequence = s.delivery.sequence)
    (hrequired : t.delivery.policy.keyFrameRequired = true)
    (hawaiting : t.delivery.policy.awaitingKeyFrameDelivery = true) : Sound t := by
  have hsame : sentBy t.activeEncoderGeneration t.outputs =
      sentBy s.activeEncoderGeneration s.outputs := by
    rw [houtputs, hgeneration, sentBy_append]
    simp [sentBy]
  refine ⟨fun ha => ?_, ?_, ?_, ?_, fun o ho => ?_, fun _ => .inl hrequired,
    fun _ _ _ _ => hawaiting⟩
  · rw [hawaiting] at ha
    cases ha
  · rw [houtputs]
    refine hs.deltas.concat fun connection hsent _ => ?_
    obtain ⟨_, hsent⟩ := hsent
    cases hsent
  · rw [hsame]
    exact hs.numbered
  · rw [hsame, hsequence]
    exact hs.next
  · rw [houtputs, List.mem_append, List.mem_singleton] at ho
    rw [hgeneration]
    rcases ho with ho | rfl
    · exact hs.current o ho
    · exact le_refl _

/-- A chunk is sent on with the next number, a delta chunk only on an unbroken chain. -/
theorem Sound.send {s t : Capture} (hs : Sound s) (settled : s.recovering = false)
    {type : String} {message : Bytes} (hnumber : sequenceOf message = s.delivery.sequence)
    (hcan : s.delivery.policy.awaitingKeyFrameDelivery = false ∨ type = "key")
    (houtputs : t.outputs = s.outputs ++
      [⟨s.activeEncoderGeneration, type, some (s.connection, message)⟩])
    (hgeneration : t.activeEncoderGeneration = s.activeEncoderGeneration)
    (hconnection : t.connection = s.connection)
    (hdelivery : t.delivery = ⟨s.delivery.policy.onEncodedChunkDelivered type,
      (s.delivery.sequence + 1) % 2 ^ 32⟩) : Sound t := by
  have hon : sentOn s.connection ⟨s.activeEncoderGeneration, type, some (s.connection, message)⟩ :=
    ⟨message, rfl⟩
  have hsent : sentBy t.activeEncoderGeneration t.outputs =
      sentBy s.activeEncoderGeneration s.outputs ++ [message] := by
    rw [houtputs, hgeneration, sentBy_append]
    simp [sentBy]
  have hawaiting : t.delivery.policy.awaitingKeyFrameDelivery = false := by
    rw [hdelivery]
    by_cases hkey : type = "key"
    · simp [DirectResyncPolicy.onEncodedChunkDelivered, hkey]
    · simpa [DirectResyncPolicy.onEncodedChunkDelivered, hkey] using hcan
  refine ⟨fun _ _ => ?_, ?_, ?_, ?_, fun o ho => ?_, fun ha => ?_, fun earlier o ho hnone => ?_⟩
  · rw [houtputs, hconnection]
    rcases hcan with ha | hkey
    · exact (hs.unbroken ha settled).append hon
    · exact .key s.outputs hkey hon
  · rw [houtputs]
    refine hs.deltas.concat fun connection ho hdelta => ?_
    obtain ⟨_, ho⟩ := ho
    cases ho
    exact hs.unbroken (hcan.resolve_right hdelta) settled
  · rw [hsent, List.map_append, hs.numbered, List.length_append, List.length_singleton,
      List.range_succ, List.map_append, List.map_singleton, List.map_singleton, hnumber, hs.next]
  · rw [hsent, hdelivery, List.length_append, List.length_singleton, hs.next]
    exact Nat.mod_add_mod _ _ _
  · rw [houtputs, List.mem_append, List.mem_singleton] at ho
    rw [hgeneration]
    rcases ho with ho | rfl
    · exact hs.current o ho
    · exact le_refl _
  · rw [hawaiting] at ha
    cases ha
  · rw [houtputs] at ho
    obtain ⟨-, ho⟩ := List.append_inj' ho rfl
    cases ho
    cases hnone

/-- A fresh encoder starts a fresh numbering. -/
theorem Sound.reset {s : Capture} (hs : Sound s) (epoch : Nat) :
    Sound { s with
      delivery := {}
      sourceEpoch := .integer epoch
      lastKeyFrameTimestampUs := none
      activeEncoderGeneration := s.activeEncoderGeneration + 1
      encoder := [] } := by
  have hnone : sentBy (s.activeEncoderGeneration + 1) s.outputs = [] := by
    rw [sentBy, List.filterMap_eq_nil_iff]
    intro o ho
    have := hs.current o ho
    rw [if_neg (by omega)]
  refine ⟨fun h => by simp at h, hs.deltas, ?_, ?_, fun o ho => ?_, fun _ => .inl rfl,
    fun _ _ _ _ => rfl⟩
  · simp only [hnone]
    rfl
  · simp only [hnone]
    rfl
  · exact Nat.le_succ_of_le (hs.current o ho)

theorem Sound.output {s : Capture} (hs : Sound s) {rest : List Bool}
    (settled : s.recovering = false) (chunk : EncodedVideoChunk) (takes : Bool)
    (accepted : ∃ message,
      createDirectVideoMessage chunk s.sourceEpoch (.integer s.delivery.sequence) = .ok message) :
    Sound ({ s with encoder := rest }.handleEncodedChunk chunk takes) := by
  unfold Capture.handleEncodedChunk
  rcases deliver_cases s.connected takes s.telemetry accepted with ⟨d, t, hd, hr, ha, hn⟩ | ⟨message, t, hd, hm, hcan⟩
  · simp only [hd]
    exact hs.drop rfl rfl hn hr ha
  · simp only [hd]
    exact hs.send settled (sequenceOf_message hm) hcan rfl rfl rfl rfl

theorem Sound.step {s t : Capture} (hs : Sound s) (h : Step s t) : Sound t := by
  cases h with
  | frame frame => exact hs.encodeFrame frame
  | output chunk takes oldest asked accepted settled => exact hs.output settled chunk takes accepted
  | stale | lost =>
    exact hs.of_same_outputs rfl rfl rfl (fun ha hr => ⟨ha, hr, rfl⟩) hs.coming id
  | reconnected =>
    refine hs.of_same_outputs rfl rfl rfl (fun _ hr => ?_) hs.coming id
    cases hr
  | recovered | requested => exact hs.required rfl rfl rfl
  | reset epoch => exact hs.reset epoch

theorem reachable_sound {s : Capture} (h : Reachable s) : Sound s := by
  obtain ⟨epoch, connected, h⟩ := h
  induction h with
  | refl => exact .started _ _
  | tail _ step ih => exact ih.step step

/-- Delta chunks are being withheld: none can be delivered, or the last chunk was not sent. -/
def Withholding (s : Capture) : Prop :=
  s.delivery.policy.canDeliverEncodedChunk "delta" = false ∨
    ∃ earlier o, s.outputs = earlier ++ [o] ∧ o.sent = none

/-- Delivery has no gaps and cannot get stuck. -/
theorem delivery_gapless_and_live (s : Capture) (h : Reachable s) :
    History Decodable s.outputs ∧
    (sentBy s.activeEncoderGeneration s.outputs).map sequenceOf =
      (List.range (sentBy s.activeEncoderGeneration s.outputs).length).map (· % 2 ^ 32) ∧
    (Withholding s → s.delivery.shouldEncodeKeyFrame false = true ∨ true ∈ s.encoder) := by
  have hs := reachable_sound h
  refine ⟨hs.deltas, hs.numbered, fun hw => ?_⟩
  have hawaiting : s.delivery.policy.awaitingKeyFrameDelivery = true := by
    rcases hw with hcan | ⟨earlier, o, ho, hnone⟩
    · simpa [DirectResyncPolicy.canDeliverEncodedChunk] using hcan
    · exact hs.withheld earlier o ho hnone
  simpa [DirectDeliveryOrchestrator.shouldEncodeKeyFrame,
    DirectResyncPolicy.shouldEncodeKeyFrame] using hs.coming hawaiting

def encodable (timestamp : Int) : SourceFrame := ⟨timestamp, true, 0, true, true, true⟩

/-- A connected capture with its first frame inside the encoder. -/
def submitted : Capture := Capture.encodeFrame (encodable 0) { connected := true }

def keyChunk : EncodedVideoChunk := ⟨"key", .integer 0, [0x65]⟩

def keySent : Capture := { submitted with encoder := [] }.handleEncodedChunk keyChunk true

def deltaSubmitted : Capture := keySent.encodeFrame (encodable 1000)

/-- The capture after its key chunk was sent and a delta chunk was refused. -/
def refused : Capture :=
  { deltaSubmitted with encoder := [] }.handleEncodedChunk ⟨"delta", .integer 1000, [0x41]⟩ false

theorem refused_reachable : Reachable refused := by
  have hkey : Step submitted keySent := .output keyChunk true rfl (fun _ => rfl) ⟨_, rfl⟩ rfl
  have hdelta : Step deltaSubmitted refused :=
    .output _ false rfl (fun h => by cases h) ⟨_, rfl⟩ rfl
  exact ⟨1, true, .tail (.tail (.tail (.single (.frame (encodable 0))) hkey)
    (.frame (encodable 1000))) hdelta⟩

/-- The refused delta chunk makes the next frame a key frame. -/
theorem refused_withholds :
    Withholding refused ∧ refused.delivery.shouldEncodeKeyFrame false = true ∧
      (sentBy 1 refused.outputs).map sequenceOf = [0] := by
  obtain ⟨-, hnumbered, hlive⟩ := delivery_gapless_and_live refused refused_reachable
  have hwithheld : Withholding refused := .inl rfl
  exact ⟨hwithheld, (hlive hwithheld).resolve_right (by decide), hnumbered⟩

end HarmonyScreen.Proofs.Delivery
