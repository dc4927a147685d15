import HarmonyScreen.Receiver.Bytes

namespace HarmonyScreen.Receiver.Mdns

structure Ipv4Address where
  first : UInt8
  second : UInt8
  third : UInt8
  fourth : UInt8
  deriving DecidableEq, Repr

namespace Ipv4Address

def bytes (a : Ipv4Address) : Bytes := [a.first, a.second, a.third, a.fourth]

def ofBytes : Bytes → Option Ipv4Address
  | [a, b, c, d] => some ⟨a, b, c, d⟩
  | _ => none

end Ipv4Address

def kHostname : Bytes := ascii "harmony-web-companion.local"
def kRecordTtlSeconds : Nat := 120
def kMaximumQueryBytes : Nat := 512
def kMaximumResponseBytes : Nat := 64
def kMulticastAddress : Ipv4Address := ⟨224, 0, 0, 251⟩
def kMulticastPort : Nat := 5353
def kWindowsQueryHopLimit : Int := 1
def kRequiredResponseHopLimit : Int := 255
def kMaximumResponsesPerSecond : Nat := 10

def kHeaderBytes : Nat := 12
def kMaximumPointerJumps : Nat := 16
def kMaximumRecords : Nat := 16
def kTypeA : Nat := 1
def kTypeAny : Nat := 255
def kClassIn : Nat := 1
def kCacheFlush : Nat := 0x8000
def kQueryResponse : Nat := 0x8000
def kAuthoritative : Nat := 0x0400
def kTruncated : Nat := 0x0200
def kOpcodeMask : Nat := 0x7800

inductive MessageKind where
  | invalid
  | query
  | probe
  | response
  deriving DecidableEq, Repr

structure ParsedName where
  value : Bytes
  consumed : Nat
  deriving DecidableEq, Repr

/-- The byte at an offset that was checked to lie in the packet. -/
def byteAt (packet : Bytes) (offset : Nat) : Nat := (packet.getD offset 0).toNat

def readU16 (packet : Bytes) (offset : Nat) : Option Nat :=
  if offset + 2 ≤ packet.length then some (readBig ((packet.drop offset).take 2)) else none

def readU32 (packet : Bytes) (offset : Nat) : Option Nat :=
  if offset + 4 ≤ packet.length then some (readBig ((packet.drop offset).take 4)) else none

def isUpper (value : UInt8) : Bool := 0x41 ≤ value && value ≤ 0x5a

/-- `std::tolower` in the C locale. -/
def toLower (value : UInt8) : UInt8 := if isUpper value then value + 0x20 else value

def validLabelCharacter (value : UInt8) : Bool :=
  (0x30 ≤ value && value ≤ 0x39) || isUpper value || (0x61 ≤ value && value ≤ 0x7a) ||
    value == 0x2d

/-- A label joined to the name that was read so far. -/
def joinLabel (output label : Bytes) : Bytes :=
  (if output = [] then output else output ++ [0x2e]) ++ label.map toLower

/-- The loop of `DecodeName`. Each turn follows one of at most sixteen pointers or
reads a label; `fuel` bounds the turns. -/
def nameLoop (packet : Bytes) : Nat → (cursor consumed : Nat) → (jumped : Bool) →
    (visited : List Nat) → (output : Bytes) → Option ParsedName
  | 0, _, _, _, _, _ => none
  | fuel + 1, cursor, consumed, jumped, visited, output =>
    if cursor ≥ packet.length then none
    else
      let length := byteAt packet cursor
      if length ≥ 0xc0 then
        if cursor + 1 ≥ packet.length ∨ visited.length ≥ kMaximumPointerJumps then none
        else
          let pointer := length % 0x40 * 256 + byteAt packet (cursor + 1)
          if pointer ≥ packet.length ∨ pointer ∈ visited then none
          else
            nameLoop packet fuel pointer (if jumped then consumed else consumed + 2) true
              (visited ++ [pointer]) output
      else if length > 63 then none
      else
        let cursor := cursor + 1
        let consumed := if jumped then consumed else consumed + 1
        if length = 0 then
          if output ≠ [] ∧ output.length ≤ 253 then some ⟨output, consumed⟩ else none
        else if length > packet.length - cursor then none
        else
          let label := (packet.drop cursor).take length
          if !label.all validLabelCharacter then none
          else
            let output := joinLabel output label
            if output.length > 253 then none
            else
              nameLoop packet fuel (cursor + length)
                (if jumped then consumed else consumed + length) jumped visited output

/-- As many turns as labels and pointers can take. -/
def nameFuel (packet : Bytes) : Nat := (kMaximumPointerJumps + 1) * (packet.length + 1)

def decodeName (packet : Bytes) (offset : Nat) : Option ParsedName :=
  if offset ≥ packet.length then none
  else nameLoop packet (nameFuel packet) offset 0 false [] []

/-- One decimal part of an address: one to three digits without a leading zero. -/
def parseOctet (part : Bytes) : Option UInt8 :=
  let value := part.foldl (fun (value : Nat) c => value * 10 + (c.toNat - 0x30)) 0
  if part = [] ∨ part.length > 3 ∨ !part.all (fun c => 0x30 ≤ c && c ≤ 0x39) ∨ value > 255 ∨
      (part.length > 1 ∧ part.head? = some 0x30) then none
  else some value.toUInt8

def parseIpv4Address (text : Bytes) : Option Ipv4Address :=
  if text = [] then none
  else
    match (text.splitOn 0x2e).mapM parseOctet with
    | some octets => Ipv4Address.ofBytes octets
    | none => none

def isTrustedLanAddress (address : Ipv4Address) : Bool :=
  address.first == 10 || (address.first == 172 && 16 ≤ address.second && address.second ≤ 31) ||
    (address.first == 192 && address.second == 168) ||
    (address.first == 169 && address.second == 254)

/-- The first difference decides. -/
def compareBytes : Bytes → Bytes → Int
  | left :: lefts, right :: rights =>
    if left < right then -1 else if left > right then 1 else compareBytes lefts rights
  | _, _ => 0

def compareAddresses (left right : Ipv4Address) : Int := compareBytes left.bytes right.bytes

/-- The counts of the header and its flags. -/
structure Header where
  identifier : Nat
  flags : Nat
  questionCount : Nat
  answerCount : Nat
  authorityCount : Nat
  additionalCount : Nat
  deriving DecidableEq, Repr

def readHeader (packet : Bytes) : Option Header :=
  match readU16 packet 0, readU16 packet 2, readU16 packet 4, readU16 packet 6, readU16 packet 8,
      readU16 packet 10 with
  | some identifier, some flags, some questions, some answers, some authorities, some additionals =>
    some ⟨identifier, flags, questions, answers, authorities, additionals⟩
  | _, _, _, _, _, _ => none

def Header.isResponse (h : Header) : Bool := h.flags &&& kQueryResponse != 0

def Header.recordCount (h : Header) : Nat := h.answerCount + h.authorityCount + h.additionalCount

def classifyMessage (packet : Bytes) : MessageKind :=
  if packet.length < kHeaderBytes ∨ packet.length > kMaximumQueryBytes then .invalid
  else
    match readHeader packet with
    | none => .invalid
    | some h =>
      if h.flags &&& (kOpcodeMask ||| kTruncated) ≠ 0 then .invalid
      else if h.isResponse then if h.recordCount > 0 then .response else .invalid
      else if h.questionCount ≠ 1 then .invalid
      else if h.authorityCount > 0 then .probe else .query

/-- `EncodedHostname`: the labels of the fixed name. -/
def encodedHostname : Bytes :=
  (kHostname.splitOn 0x2e).flatMap (fun label => label.length.toUInt8 :: label) ++ [0]

/-- The twelve bytes of a header. -/
def buildHeader (h : Header) : Bytes :=
  bigEndian 2 h.identifier ++ bigEndian 2 h.flags ++ bigEndian 2 h.questionCount ++
    bigEndian 2 h.answerCount ++ bigEndian 2 h.authorityCount ++ bigEndian 2 h.additionalCount

/-- A query for the fixed name. -/
def buildQuestion (authorityCount type : Nat) : Bytes :=
  buildHeader ⟨0, 0, 1, 0, authorityCount, 0⟩ ++ encodedHostname ++ bigEndian 2 type ++
    bigEndian 2 kClassIn

def buildAQuery : Bytes := buildQuestion 0 kTypeA

/-- The query turned into one for any type, with the address to be claimed as authority. -/
def buildAProbe (address : Ipv4Address) : Bytes :=
  let probe := buildQuestion 1 kTypeAny ++ [0xc0, 0x0c] ++ bigEndian 2 kTypeA ++
    bigEndian 2 kClassIn ++ bigEndian 4 kRecordTtlSeconds ++ bigEndian 2 4 ++ address.bytes
  if probe.length > kMaximumResponseBytes then [] else probe

def buildARecord (address : Ipv4Address) (ttlSeconds : Nat) : Bytes :=
  let response := buildHeader ⟨0, kQueryResponse ||| kAuthoritative, 0, 1, 0, 0⟩ ++
    encodedHostname ++ bigEndian 2 kTypeA ++ bigEndian 2 (kClassIn ||| kCacheFlush) ++
    bigEndian 4 ttlSeconds ++ bigEndian 2 4 ++ address.bytes
  if response.length > kMaximumResponseBytes then [] else response

/-- The fields between a record's name and its data. -/
structure RecordFields where
  type : Nat
  recordClass : Nat
  ttl : Nat
  dataLength : Nat
  deriving DecidableEq, Repr

def readRecordFields (packet : Bytes) (offset : Nat) : Option RecordFields :=
  match readU16 packet offset, readU16 packet (offset + 2), readU32 packet (offset + 4),
      readU16 packet (offset + 8) with
  | some type, some recordClass, some ttl, some dataLength =>
    some ⟨type, recordClass, ttl, dataLength⟩
  | _, _, _, _ => none

/-- The class without the bit that mDNS uses for itself. -/
def plainClass (recordClass : Nat) : Nat := recordClass % kCacheFlush

/-- The known answers of a query: whether one of them suppresses the answer. -/
def knownAnswers (query : Bytes) (address : Ipv4Address) : (count offset : Nat) → (suppress : Bool) →
    Option (Nat × Bool)
  | 0, offset, suppress => some (offset, suppress)
  | count + 1, offset, suppress =>
    match decodeName query offset with
    | none => none
    | some answerName =>
      if answerName.consumed > query.length - offset then none
      else
        let offset := offset + answerName.consumed
        match readRecordFields query offset with
        | none => none
        | some fields =>
          if answerName.value ≠ kHostname ∨ fields.type ≠ kTypeA ∨
              plainClass fields.recordClass ≠ kClassIn ∨ fields.dataLength ≠ 4 then none
          else
            let offset := offset + 10
            if offset > query.length ∨ fields.dataLength > query.length - offset then none
            else
              let sameAddress := (query.drop offset).take 4 == address.bytes
              knownAnswers query address count (offset + fields.dataLength)
                (suppress || (sameAddress && fields.ttl ≥ kRecordTtlSeconds / 2))

/-- The question of a query for the fixed name: the offset behind it. -/
def questionEnd (query : Bytes) : Option Nat :=
  match decodeName query kHeaderBytes with
  | none => none
  | some name =>
    if name.value ≠ kHostname then none
    else
      let offset := kHeaderBytes + name.consumed
      match readU16 query offset, readU16 query (offset + 2) with
      | some type, some recordClass =>
        if (type ≠ kTypeA ∧ type ≠ kTypeAny) ∨ plainClass recordClass ≠ kClassIn then none
        else some (offset + 4)
      | _, _ => none

/-- The answer to a query, or nothing. -/
def buildAResponse (query : Bytes) (address : Ipv4Address) : Bytes :=
  if query.length < kHeaderBytes ∨ query.length > kMaximumQueryBytes then []
  else
    match readHeader query with
    | none => []
    | some h =>
      if h.identifier ≠ 0 ∨ h.flags &&& (kQueryResponse ||| kOpcodeMask ||| kTruncated) ≠ 0 ∨
          h.questionCount ≠ 1 ∨ h.answerCount > kMaximumRecords ∨ h.authorityCount ≠ 0 ∨
          h.additionalCount ≠ 0 then []
      else
        match questionEnd query with
        | none => []
        | some offset =>
          match knownAnswers query address h.answerCount offset false with
          | none => []
          | some (offset, suppressKnownAnswer) =>
            if offset ≠ query.length ∨ suppressKnownAnswer then []
            else buildARecord address kRecordTtlSeconds

def skipQuestions (packet : Bytes) : (count offset : Nat) → Option Nat
  | 0, offset => some offset
  | count + 1, offset =>
    match decodeName packet offset with
    | none => none
    | some name =>
      if name.consumed > packet.length - offset then none
      else
        let offset := offset + name.consumed
        if packet.length - offset < 4 then none else skipQuestions packet count (offset + 4)

/-- The loop of `ExtractARecords` over the records: the addresses found and the end. -/
def recordLoop (packet : Bytes) : (count offset : Nat) → (addresses : List Ipv4Address) →
    Option (List Ipv4Address × Nat)
  | 0, offset, addresses => some (addresses, offset)
  | count + 1, offset, addresses =>
    match decodeName packet offset with
    | none => none
    | some name =>
      if name.consumed > packet.length - offset then none
      else
        let offset := offset + name.consumed
        match readRecordFields packet offset with
        | none => none
        | some fields =>
          let offset := offset + 10
          if offset > packet.length ∨ fields.dataLength > packet.length - offset then none
          else
            let found :=
              if fields.ttl > 0 ∧ name.value = kHostname ∧ fields.type = kTypeA ∧
                  plainClass fields.recordClass = kClassIn ∧ fields.dataLength = 4 then
                (Ipv4Address.ofBytes ((packet.drop offset).take 4)).toList
              else []
            recordLoop packet count (offset + fields.dataLength) (addresses ++ found)

/-- The messages whose records are looked at: responses, probes, and queries with known answers. -/
def Header.carriesRecords (h : Header) : Bool :=
  let knownAnswerQuery :=
    !h.isResponse && h.answerCount > 0 && h.authorityCount == 0 && h.additionalCount == 0
  let probe := !h.isResponse && h.answerCount == 0 && h.authorityCount > 0 && h.additionalCount == 0
  (h.isResponse && h.recordCount > 0) || knownAnswerQuery || probe

def extractARecords (packet : Bytes) : List Ipv4Address :=
  if packet.length < kHeaderBytes ∨ packet.length > kMaximumQueryBytes then []
  else
    match readHeader packet with
    | none => []
    | some h =>
      if h.flags &&& (kOpcodeMask ||| kTruncated) ≠ 0 ∨ !h.carriesRecords ∨
          h.recordCount > kMaximumRecords then []
      else
        match skipQuestions packet h.questionCount kHeaderBytes with
        | none => []
        | some offset =>
          match recordLoop packet h.recordCount offset [] with
          | none => []
          | some (addresses, offset) => if offset ≠ packet.length then [] else addresses

theorem encodedHostname_length : encodedHostname.length = 29 := by decide

@[simp] theorem length_buildHeader (h : Header) : (buildHeader h).length = 12 := by
  simp [buildHeader]

@[simp] theorem length_bytes (a : Ipv4Address) : a.bytes.length = 4 := rfl

/-- A record of the fixed name, split at its time to live. -/
theorem buildARecord_eq (address : Ipv4Address) (ttl : Nat) :
    buildARecord address ttl = buildHeader ⟨0, kQueryResponse ||| kAuthoritative, 0, 1, 0, 0⟩ ++
      encodedHostname ++ bigEndian 2 kTypeA ++ bigEndian 2 (kClassIn ||| kCacheFlush) ++
      bigEndian 4 ttl ++ bigEndian 2 4 ++ address.bytes := by
  unfold buildARecord
  rw [if_neg (by simp [encodedHostname_length, kMaximumResponseBytes])]

theorem buildAProbe_eq (address : Ipv4Address) :
    buildAProbe address = buildQuestion 1 kTypeAny ++ [0xc0, 0x0c] ++ bigEndian 2 kTypeA ++
      bigEndian 2 kClassIn ++ bigEndian 4 kRecordTtlSeconds ++ bigEndian 2 4 ++ address.bytes := by
  unfold buildAProbe
  rw [if_neg (by simp [buildQuestion, encodedHostname_length, kMaximumResponseBytes])]

theorem length_buildARecord (address : Ipv4Address) (ttl : Nat) :
    (buildARecord address ttl).length = 55 := by
  simp [buildARecord_eq, encodedHostname_length]

theorem length_buildAProbe (address : Ipv4Address) : (buildAProbe address).length = 61 := by
  simp [buildAProbe_eq, buildQuestion, encodedHostname_length]

theorem buildARecord_ne_nil (address : Ipv4Address) (ttl : Nat) : buildARecord address ttl ≠ [] :=
  List.ne_nil_of_length_pos (by rw [length_buildARecord]; decide)

theorem buildAProbe_ne_nil (address : Ipv4Address) : buildAProbe address ≠ [] :=
  List.ne_nil_of_length_pos (by rw [length_buildAProbe]; decide)

theorem buildAResponse_cases (query : Bytes) (address : Ipv4Address) :
    buildAResponse query address = [] ∨
      buildAResponse query address = buildARecord address kRecordTtlSeconds := by
  unfold buildAResponse
  repeat' split
  all_goals first | exact .inl rfl | exact .inr rfl

/-- A record that withdraws the name. -/
def IsGoodbye (packet : Bytes) : Prop := ∃ address, packet = buildARecord address 0

theorem not_isGoodbye_probe (address : Ipv4Address) : ¬ IsGoodbye (buildAProbe address) := by
  rintro ⟨other, h⟩
  have := congrArg List.length h
  rw [length_buildAProbe, length_buildARecord] at this
  omega

/-- A record that is not withdrawn differs from a goodbye in its time to live. -/
theorem not_isGoodbye_record (address : Ipv4Address) :
    ¬ IsGoodbye (buildARecord address kRecordTtlSeconds) := by
  rintro ⟨other, h⟩
  simp only [buildARecord_eq, List.append_assoc] at h
  have hrest := List.append_cancel_left (List.append_cancel_left (List.append_cancel_left
    (List.append_cancel_left h)))
  exact absurd (List.append_inj_left hrest rfl) (by decide)

end HarmonyScreen.Receiver.Mdns
