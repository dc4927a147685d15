import HarmonyScreen.Proofs.MdnsMessages

namespace HarmonyScreen.Proofs.MdnsPackets
open Lib Dns Receiver Mdns MdnsNames MdnsMessages

/-- The fixed name as it is written out. -/
def hostName : Name := ⟨hostLabels, 0⟩

/-- The record a responder gives its address with. -/
def hostRecord (name : Name) (recordClass ttl : Nat) (address : Ipv4Address) : Record :=
  ⟨name, kTypeA, recordClass, ttl, address.bytes⟩

def recordMessage (address : Ipv4Address) (ttl : Nat) : Message where
  identifier := 0
  flags := kQueryResponse ||| kAuthoritative
  questions := []
  answers := [hostRecord hostName (kClassIn ||| kCacheFlush) ttl address]
  authorities := []
  additionals := []

def probeMessage (address : Ipv4Address) : Message where
  identifier := 0
  flags := 0
  questions := [⟨hostName, kTypeAny, kClassIn⟩]
  answers := []
  authorities := [hostRecord ⟨hostLabels, 1⟩ kClassIn kRecordTtlSeconds address]
  additionals := []

/-- A record up to its address. -/
def recordHead (ttl : Nat) : Bytes :=
  buildHeader ⟨0, kQueryResponse ||| kAuthoritative, 0, 1, 0, 0⟩ ++ encodedHostname ++
    bigEndian 2 kTypeA ++ bigEndian 2 (kClassIn ||| kCacheFlush) ++ bigEndian 4 ttl ++ bigEndian 2 4

/-- A probe up to its address. -/
def probeHead : Bytes :=
  buildQuestion 1 kTypeAny ++ [0xc0, 0x0c] ++ bigEndian 2 kTypeA ++ bigEndian 2 kClassIn ++
    bigEndian 4 kRecordTtlSeconds ++ bigEndian 2 4

theorem hostLabels_short : ∀ label ∈ hostLabels, label ≠ [] ∧ label.length ≤ 63 := by
  decide

theorem hostName_admitted : Admitted hostName := by decide

theorem wireLength_hostLabels : wireLength hostLabels ≤ 255 := by decide

/-- The name as `EncodedHostname` writes it. -/
theorem nameAt_host {head : Bytes} (here : FieldAt head kHeaderBytes (encodeName hostLabels)) :
    NameAt head kHeaderBytes hostLabels 0 41 :=
  nameAt_encode hostLabels hostLabels_short here

theorem messageAt_record (address : Ipv4Address) {ttl : Nat}
    (hname : FieldAt (recordHead ttl) kHeaderBytes (encodeName hostLabels))
    (htype : NumberAt (recordHead ttl) 41 2 kTypeA)
    (hclass : NumberAt (recordHead ttl) 43 2 (kClassIn ||| kCacheFlush))
    (httl : NumberAt (recordHead ttl) 45 4 ttl) (hsize : NumberAt (recordHead ttl) 49 2 4)
    (hcounts : NumberAt (recordHead ttl) 0 2 0 ∧
      NumberAt (recordHead ttl) 2 2 (kQueryResponse ||| kAuthoritative) ∧
      NumberAt (recordHead ttl) 4 2 0 ∧ NumberAt (recordHead ttl) 6 2 1 ∧
      NumberAt (recordHead ttl) 8 2 0 ∧ NumberAt (recordHead ttl) 10 2 0)
    (hlen : (recordHead ttl).length = 51) :
    MessageAt (buildARecord address ttl) (recordMessage address ttl) := by
  have hpacket : buildARecord address ttl = recordHead ttl ++ address.bytes := buildARecord_eq ..
  have hdata := fieldAt_end (recordHead ttl) address.bytes
  rw [hlen] at hdata
  obtain ⟨hidentifier, hflags, hquestions, hanswers, hauthorities, hadditionals⟩ := hcounts
  rw [hpacket]
  refine ⟨hidentifier.append _, hflags.append _, hquestions.append _, hanswers.append _,
    hauthorities.append _, hadditionals.append _, 12, .nil, .cons ?_ .nil⟩
  exact ⟨41, (nameAt_host hname).append _, wireLength_hostLabels, htype.append _, hclass.append _,
    httl.append _, hsize.append _, hdata, by simp [hlen, hostRecord]⟩

theorem messageAt_announcement (address : Ipv4Address) :
    MessageAt (buildARecord address kRecordTtlSeconds) (recordMessage address kRecordTtlSeconds) := by
  apply messageAt_record <;> decide

theorem messageAt_goodbye (address : Ipv4Address) :
    MessageAt (buildARecord address 0) (recordMessage address 0) := by
  apply messageAt_record <;> decide

theorem messageAt_probe (address : Ipv4Address) :
    MessageAt (buildAProbe address) (probeMessage address) := by
  have hpacket : buildAProbe address = probeHead ++ address.bytes := buildAProbe_eq ..
  have hname : NameAt probeHead kHeaderBytes hostLabels 0 41 := nameAt_host (by decide)
  have hpointer : NameAt probeHead 45 hostLabels 1 47 :=
    .pointer (by decide) (by decide) (by decide) hname
  have hdata : FieldAt (probeHead ++ address.bytes) 57 address.bytes := fieldAt_end probeHead _
  have hquestion : QuestionAt probeHead 12 ⟨hostName, kTypeAny, kClassIn⟩ 45 :=
    ⟨41, hname, wireLength_hostLabels, by decide, by decide, rfl⟩
  have htype : NumberAt probeHead 47 2 kTypeA := by decide
  have hclass : NumberAt probeHead 49 2 kClassIn := by decide
  have httl : NumberAt probeHead 51 4 kRecordTtlSeconds := by decide
  have hsize : NumberAt probeHead 55 2 4 := by decide
  have hcounts : NumberAt probeHead 0 2 0 ∧ NumberAt probeHead 2 2 0 ∧ NumberAt probeHead 4 2 1 ∧
      NumberAt probeHead 6 2 0 ∧ NumberAt probeHead 8 2 1 ∧ NumberAt probeHead 10 2 0 := by
    decide
  obtain ⟨hidentifier, hflags, hquestions, hanswers, hauthorities, hadditionals⟩ := hcounts
  obtain ⟨past, hqname, hqlen, hqtype, hqclass, hqend⟩ := hquestion
  rw [hpacket]
  refine ⟨hidentifier.append _, hflags.append _, hquestions.append _, hanswers.append _,
    hauthorities.append _, hadditionals.append _, 45, .cons ?_ .nil, .cons ?_ .nil⟩
  · exact ⟨past, hqname.append _, hqlen, hqtype.append _, hqclass.append _, hqend⟩
  · exact ⟨47, hpointer.append _, wireLength_hostLabels, htype.append _, hclass.append _,
      httl.append _, hsize.append _, hdata, rfl⟩

theorem classifyMessage_message {packet : Bytes} {m : Message} (h : MessageAt packet m)
    (hlen : packet.length ≤ 512) (hplain : Plain m) :
    classifyMessage packet =
      if m.isResponse then if m.records.length > 0 then .response else .invalid
      else if m.questions.length ≠ 1 then .invalid
      else if m.authorities.length > 0 then .probe else .query := by
  have hheader := h.additionalCount.inside
  have hask : ¬ (packet.length < kHeaderBytes ∨ packet.length > kMaximumQueryBytes) := by
    simp only [kHeaderBytes, kMaximumQueryBytes]
    omega
  rw [classifyMessage, if_neg hask, readHeader_message h]
  dsimp only
  have hflags : ¬ (headerOf m).flags &&& (kOpcodeMask ||| kTruncated) ≠ 0 :=
    not_not.mpr (flags_plain hplain)
  rw [if_neg hflags, isResponse_headerOf, recordCount_headerOf]
  rfl

section Own
variable (address : Ipv4Address)

theorem plain_record (ttl : Nat) : Plain (recordMessage address ttl) := by
  constructor
  · change (kQueryResponse ||| kAuthoritative) / 2 ^ 11 % 2 ^ 4 = 0
    decide
  · change (kQueryResponse ||| kAuthoritative).testBit 9 = false
    decide

theorem isResponse_record (ttl : Nat) : (recordMessage address ttl).isResponse = true := by
  change (kQueryResponse ||| kAuthoritative).testBit 15 = true
  decide

theorem plain_probe : Plain (probeMessage address) := by
  constructor
  · change 0 / 2 ^ 11 % 2 ^ 4 = 0
    decide
  · exact Nat.zero_testBit 9

theorem carries_record (ttl : Nat) :
    (headerOf (recordMessage address ttl)).carriesRecords = true := by
  change Header.carriesRecords ⟨0, kQueryResponse ||| kAuthoritative, 0, 1, 0, 0⟩ = true
  decide

theorem carries_probe : (headerOf (probeMessage address)).carriesRecords = true := by
  change Header.carriesRecords ⟨0, 0, 1, 0, 1, 0⟩ = true
  decide

theorem addressOf_host {name : Name} {recordClass ttl : Nat} (hname : name.labels = hostLabels)
    (hclass : plainClass recordClass = kClassIn) (httl : 0 < ttl) :
    addressOf (hostRecord name recordClass ttl address) = [address] := by
  rw [addressOf, if_pos ⟨httl, by rw [hostRecord, hname, nameText_hostLabels], rfl, hclass, rfl⟩]
  rfl

theorem classify_record {ttl : Nat}
    (h : MessageAt (buildARecord address ttl) (recordMessage address ttl)) :
    classifyMessage (buildARecord address ttl) = .response := by
  rw [classifyMessage_message h (by rw [length_buildARecord]; decide) (plain_record address ttl),
    if_pos (isResponse_record address ttl)]
  rfl

theorem classify_announcement :
    classifyMessage (buildARecord address kRecordTtlSeconds) = .response :=
  classify_record address (messageAt_announcement address)

theorem classify_goodbye : classifyMessage (buildARecord address 0) = .response :=
  classify_record address (messageAt_goodbye address)

theorem classify_probe : classifyMessage (buildAProbe address) = .probe := by
  rw [classifyMessage_message (messageAt_probe address) (by rw [length_buildAProbe]; decide)
    (plain_probe address), if_neg (by simp [probeMessage, Message.isResponse])]
  rfl

/-- An announcement claims the address for the name. -/
theorem extract_announcement :
    extractARecords (buildARecord address kRecordTtlSeconds) = [address] := by
  rw [extractARecords_message (messageAt_announcement address)
    (by rw [length_buildARecord]; decide) (plain_record address _) (by change 1 ≤ kMaximumRecords; decide)
    (carries_record address _), if_pos]
  · exact (List.append_nil _).trans (addressOf_host address rfl rfl (by decide))
  · intro name hmem
    rw [List.mem_singleton.mp hmem]
    exact hostName_admitted

/-- A probe claims the address for the name. -/
theorem extract_probe : extractARecords (buildAProbe address) = [address] := by
  rw [extractARecords_message (messageAt_probe address) (by rw [length_buildAProbe]; decide)
    (plain_probe address) (by change 1 ≤ kMaximumRecords; decide) (carries_probe address), if_pos]
  · exact (List.append_nil _).trans (addressOf_host address rfl rfl (by decide))
  · intro name hmem
    rcases List.mem_cons.mp hmem with rfl | hmem
    · exact hostName_admitted
    · rw [List.mem_singleton.mp hmem]
      exact ⟨hostName_admitted.1, hostName_admitted.2.1, show 1 ≤ kMaximumPointerJumps by decide⟩

end Own

end HarmonyScreen.Proofs.MdnsPackets
