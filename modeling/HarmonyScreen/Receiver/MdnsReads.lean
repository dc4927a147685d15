import HarmonyScreen.Receiver.MdnsProtocol

namespace HarmonyScreen.Receiver.Mdns

/-- `Byte(packet[offset])`; here and below the outer `none` stands for a read outside
the packet. -/
def readByte (packet : Bytes) (offset : Nat) : Option Nat := packet[offset]?.map UInt8.toNat

/-- The characters of a label, up to the first that may not stand in one. -/
def readLabel (packet : Bytes) : (cursor length : Nat) → Option (Option Bytes)
  | _, 0 => some (some [])
  | cursor, length + 1 =>
    packet[cursor]?.bind fun character =>
      if !validLabelCharacter character then some none
      else (readLabel packet (cursor + 1) length).map (·.map (character :: ·))

/-- The loop of `DecodeName` with its reads; also `none` where the turns do not suffice. -/
def readNameLoop (packet : Bytes) : Nat → (cursor consumed : Nat) → (jumped : Bool) →
    (visited : List Nat) → (output : Bytes) → Option (Option ParsedName)
  | 0, _, _, _, _, _ => none
  | fuel + 1, cursor, consumed, jumped, visited, output =>
    if cursor ≥ packet.length then some none
    else
      (readByte packet cursor).bind fun length =>
        if length ≥ 0xc0 then
          if cursor + 1 ≥ packet.length ∨ visited.length ≥ kMaximumPointerJumps then some none
          else
            (readByte packet (cursor + 1)).bind fun low =>
              let pointer := length % 0x40 * 256 + low
              if pointer ≥ packet.length ∨ pointer ∈ visited then some none
              else
                readNameLoop packet fuel pointer (if jumped then consumed else consumed + 2) true
                  (visited ++ [pointer]) output
        else if length > 63 then some none
        else
          let cursor := cursor + 1
          let consumed := if jumped then consumed else consumed + 1
          if length = 0 then
            if output ≠ [] ∧ output.length ≤ 253 then some (some ⟨output, consumed⟩)
            else some none
          else if length > packet.length - cursor then some none
          else
            (readLabel packet cursor length).bind fun
              | none => some none
              | some label =>
                let output := joinLabel output label
                if output.length > 253 then some none
                else
                  readNameLoop packet fuel (cursor + length)
                    (if jumped then consumed else consumed + length) jumped visited output

def readDecodeName (packet : Bytes) (offset : Nat) : Option (Option ParsedName) :=
  if offset ≥ packet.length then some none
  else readNameLoop packet (nameFuel packet) offset 0 false [] []

/-- What follows a step that may refuse the packet. -/
def andThen (read : Option (Option α)) (next : α → Option (Option β)) : Option (Option β) :=
  read.bind fun
    | none => some none
    | some a => next a

def readBytes (packet : Bytes) : (offset count : Nat) → Option Bytes
  | _, 0 => some []
  | offset, count + 1 =>
    packet[offset]?.bind fun b => (readBytes packet (offset + 1) count).map (b :: ·)

/-- `ReadU16` and `ReadU32`. -/
def readNumber (width : Nat) (packet : Bytes) (offset : Nat) : Option (Option Nat) :=
  if offset > packet.length ∨ packet.length - offset < width then some none
  else (readBytes packet offset width).map (some ∘ readBig)

def readMessageHeader (packet : Bytes) : Option (Option Header) :=
  andThen (readNumber 2 packet 0) fun identifier =>
  andThen (readNumber 2 packet 2) fun flags =>
  andThen (readNumber 2 packet 4) fun questionCount =>
  andThen (readNumber 2 packet 6) fun answerCount =>
  andThen (readNumber 2 packet 8) fun authorityCount =>
  andThen (readNumber 2 packet 10) fun additionalCount =>
  some (some ⟨identifier, flags, questionCount, answerCount, authorityCount, additionalCount⟩)

/-- The question of `BuildAResponse`: the offset behind it. -/
def readQuestion (query : Bytes) : Option (Option Nat) :=
  andThen (readDecodeName query kHeaderBytes) fun name =>
    if name.value ≠ kHostname then some none
    else
      let offset := kHeaderBytes + name.consumed
      andThen (readNumber 2 query offset) fun type =>
      andThen (readNumber 2 query (offset + 2)) fun recordClass =>
      if (type ≠ kTypeA ∧ type ≠ kTypeAny) ∨ plainClass recordClass ≠ kClassIn then some none
      else some (some (offset + 4))

def readRecord (packet : Bytes) (offset : Nat) : Option (Option RecordFields) :=
  andThen (readNumber 2 packet offset) fun type =>
  andThen (readNumber 2 packet (offset + 2)) fun recordClass =>
  andThen (readNumber 4 packet (offset + 4)) fun ttl =>
  andThen (readNumber 2 packet (offset + 8)) fun dataLength =>
  some (some ⟨type, recordClass, ttl, dataLength⟩)

/-- The loop of `BuildAResponse` over the known answers. -/
def readKnownAnswers (query : Bytes) (address : Ipv4Address) :
    (count offset : Nat) → (suppress : Bool) → Option (Option (Nat × Bool))
  | 0, offset, suppress => some (some (offset, suppress))
  | count + 1, offset, suppress =>
    andThen (readDecodeName query offset) fun answerName =>
      if offset > query.length ∨ answerName.consumed > query.length - offset then some none
      else
        let offset := offset + answerName.consumed
        andThen (readRecord query offset) fun fields =>
          if answerName.value ≠ kHostname ∨ fields.type ≠ kTypeA ∨
              plainClass fields.recordClass ≠ kClassIn ∨ fields.dataLength ≠ 4 then some none
          else
            let offset := offset + 10
            if offset > query.length ∨ fields.dataLength > query.length - offset then some none
            else
              (readBytes query offset 4).bind fun data =>
                let sameAddress := data == address.bytes
                readKnownAnswers query address count (offset + fields.dataLength)
                  (suppress || (sameAddress && fields.ttl ≥ kRecordTtlSeconds / 2))

def readAResponse (query : Bytes) (address : Ipv4Address) : Option Bytes :=
  if query.length < kHeaderBytes ∨ query.length > kMaximumQueryBytes then some []
  else
    (andThen (readMessageHeader query) fun h =>
      if h.identifier ≠ 0 ∨ h.flags &&& (kQueryResponse ||| kOpcodeMask ||| kTruncated) ≠ 0 ∨
          h.questionCount ≠ 1 ∨ h.answerCount > kMaximumRecords ∨ h.authorityCount ≠ 0 ∨
          h.additionalCount ≠ 0 then some none
      else
        andThen (readQuestion query) fun offset =>
        andThen (readKnownAnswers query address h.answerCount offset false) fun known =>
          if known.1 ≠ query.length ∨ known.2 then some none
          else some (some (buildARecord address kRecordTtlSeconds))).map (·.getD [])

end HarmonyScreen.Receiver.Mdns
