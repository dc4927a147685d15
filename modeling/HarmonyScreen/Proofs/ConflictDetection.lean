import HarmonyScreen.Proofs.MdnsSections

namespace HarmonyScreen.Proofs.ConflictDetection
open Lib Dns Receiver Mdns MdnsResponder MdnsNames MdnsMessages MdnsPackets

variable {n : Nat} {packet : Bytes} {m : Message} {address : Ipv4Address} {i : Fin n} {l : Lan n}
  {e : Outside} {datagram : MdnsDatagram}

/-- The record gives this address to the fixed name. -/
structure Claims (r : Record) (address : Ipv4Address) : Prop where
  name : r.name.Is hostLabels
  type : r.type = kTypeA
  recordClass : r.recordClass % 2 ^ 15 = kClassIn
  alive : 0 < r.ttl
  data : r.data = address.bytes

/-- A well-formed response of a permitted size that claims the name for this address,
with whatever other records. -/
structure Conflicting (packet : Bytes) (m : Message) (address : Ipv4Address) : Prop where
  message : MessageAt packet m
  short : packet.length ≤ 512
  response : m.isResponse = true
  plain : Plain m
  few : m.records.length ≤ 16
  claims : ∃ r ∈ m.records, Claims r address

theorem Claims.mem_addressOf {r : Record} (h : Claims r address) : address ∈ addressOf r := by
  have htext : nameText r.name.labels = kHostname := by rw [nameText_is h.name, nameText_hostLabels]
  rw [addressOf, if_pos ⟨h.alive, htext, h.type, h.recordClass, by rw [h.data]; rfl⟩, h.data]
  exact List.mem_singleton_self address

theorem Conflicting.carries (h : Conflicting packet m address) :
    (headerOf m).carriesRecords = true := by
  obtain ⟨r, hmem, -⟩ := h.claims
  have hcount : (headerOf m).recordCount > 0 := by
    rw [recordCount_headerOf]
    exact List.length_pos_of_mem hmem
  simp [Header.carriesRecords, isResponse_headerOf, h.response, hcount]

theorem Conflicting.classify (h : Conflicting packet m address) :
    classifyMessage packet = .response := by
  obtain ⟨r, hmem, -⟩ := h.claims
  rw [classifyMessage_message h.message h.short h.plain, if_pos h.response,
    if_pos (List.length_pos_of_mem hmem)]

/-- All names are admitted and the address is found, or the packet is thrown away. -/
theorem Conflicting.extract (h : Conflicting packet m address) :
    (∀ name ∈ m.names, Admitted name) ∧ address ∈ extractARecords packet ∨
      (¬ ∀ name ∈ m.names, Admitted name) ∧ extractARecords packet = [] := by
  rw [extractARecords_message h.message h.short h.plain h.few h.carries]
  by_cases hall : ∀ name ∈ m.names, Admitted name
  · obtain ⟨r, hmem, hclaims⟩ := h.claims
    rw [if_pos hall]
    exact .inl ⟨hall, List.mem_flatMap.mpr ⟨r, hmem, hclaims.mem_addressOf⟩⟩
  · rw [if_neg hall]
    exact .inr ⟨hall, rfl⟩

/-- No response is answered. -/
theorem Conflicting.no_answer (h : Conflicting packet m address) (own : Ipv4Address) :
    buildAResponse packet own = [] := by
  have hresponse : m.flags &&& kQueryResponse ≠ 0 := by
    have := (isResponse_headerOf m).trans h.response
    simpa [Header.isResponse, headerOf] using this
  have hflags : m.flags &&& (kQueryResponse ||| kOpcodeMask ||| kTruncated) ≠ 0 := by
    rw [Nat.and_or_distrib_left, Nat.and_or_distrib_left]
    exact fun hzero => hresponse (Nat.or_eq_zero_iff.mp (Nat.or_eq_zero_iff.mp hzero).1).1
  rw [buildAResponse, readHeader_message h.message]
  split
  · rfl
  · exact if_pos (.inr (.inl hflags))

theorem conflictLocked_state (wasPublished : Bool) :
    ((conflictLocked i wasPublished e l).responders i).state = .conflict := by
  rw [conflictLocked, Lan.update_same]

/-- The responder looks at the datagram. -/
def Accepted (datagram : MdnsDatagram) (selected : MdnsInterface) : Prop :=
  acceptDatagramMetadata datagram selected = true ∧
    acceptMessageHopLimit datagram (classifyMessage datagram.bytes) = true

theorem accepted_goes_on (h : Accepted datagram (l.responders i).selectedInterface) :
    ¬ (!acceptDatagramMetadata datagram (l.responders i).selectedInterface ||
      !acceptMessageHopLimit datagram (classifyMessage datagram.bytes)) = true := by
  simp [h.1, h.2]

/-- A candidate gives way to a response with another address when it sees one. -/
theorem probing_conflict (haccept : Accepted datagram (l.responders i).selectedInterface)
    (hkind : classifyMessage datagram.bytes = .response)
    (hstate : (l.responders i).state = .probing) :
    ((handleProbingDatagram i datagram e l).2.responders i).state = .conflict ↔
      (l.responders i).desired = true ∧ (extractARecords datagram.bytes).any
        (· != (l.responders i).selectedInterface.address) = true := by
  rw [handleProbingDatagram, handled, Lan.update_same, probingDatagram]
  dsimp only
  rw [if_neg (accepted_goes_on haccept), hkind]
  by_cases hany : (extractARecords datagram.bytes).any
      (· != (l.responders i).selectedInterface.address) = true
  · rw [if_neg (by simp [hany])]
    by_cases hd : (l.responders i).desired = true
    · simp [hd, hany, conflictLocked_state]
    · simp [hd, hstate]
  · rw [if_pos (by simpa using hany)]
    simp [hany, hstate]

/-- So does an owner. -/
theorem published_conflict (haccept : Accepted datagram (l.responders i).selectedInterface)
    (hkind : classifyMessage datagram.bytes = .response)
    (hsilent : buildAResponse datagram.bytes (l.responders i).selectedInterface.address = [])
    (hstate : (l.responders i).state = .published) :
    ((handlePublishedDatagram i datagram e l).2.responders i).state = .conflict ↔
      (l.responders i).desired = true ∧ (extractARecords datagram.bytes).any
        (· != (l.responders i).selectedInterface.address) = true := by
  rw [handlePublishedDatagram, handled, Lan.update_same, publishedDatagram]
  dsimp only
  rw [if_neg (accepted_goes_on haccept), hkind]
  by_cases hany : (extractARecords datagram.bytes).any
      (· != (l.responders i).selectedInterface.address) = true
  · rw [if_pos hany]
    by_cases hd : (l.responders i).desired = true
    · simp [hd, hany, conflictLocked_state]
    · simp [hd, hstate]
  · rw [if_neg hany, answerQuery, hsilent]
    simp [hany, hstate]

/-- The address of a conflicting response is found, and the responder that is probing or
`Published` goes to `Conflict`, exactly when each name in it is admitted; a stop that has
begun comes first. -/
theorem conflict_detected_iff (h : Conflicting packet m address) :
    (address ∈ extractARecords packet ↔ ∀ name ∈ m.names, Admitted name) ∧
    ∀ (n : Nat) (i : Fin n) (l : Lan n) (e : Outside) (datagram : MdnsDatagram),
      datagram.bytes = packet → Accepted datagram (l.responders i).selectedInterface →
      address ≠ (l.responders i).selectedInterface.address →
      ((l.responders i).state = .probing →
        (((handleProbingDatagram i datagram e l).2.responders i).state = .conflict ↔
          (l.responders i).desired = true ∧ ∀ name ∈ m.names, Admitted name)) ∧
      ((l.responders i).state = .published →
        (((handlePublishedDatagram i datagram e l).2.responders i).state = .conflict ↔
          (l.responders i).desired = true ∧ ∀ name ∈ m.names, Admitted name)) := by
  have hfound : address ∈ extractARecords packet ↔ ∀ name ∈ m.names, Admitted name := by
    rcases h.extract with ⟨hall, hmem⟩ | ⟨hnot, hnone⟩
    · exact ⟨fun _ => hall, fun _ => hmem⟩
    · rw [hnone]
      exact ⟨fun hmem => (by cases hmem), fun hall => absurd hall hnot⟩
  refine ⟨hfound, fun n i l e datagram hbytes haccept hother => ?_⟩
  have hkind : classifyMessage datagram.bytes = .response := hbytes ▸ h.classify
  have hany : (extractARecords datagram.bytes).any
      (· != (l.responders i).selectedInterface.address) = true ↔
        ∀ name ∈ m.names, Admitted name := by
    rw [hbytes, ← hfound]
    rcases h.extract with ⟨hall, hmem⟩ | ⟨hnot, hnone⟩
    · exact ⟨fun _ => hmem, fun _ => List.any_eq_true.mpr ⟨address, hmem, bne_iff_ne.mpr hother⟩⟩
    · rw [hnone]
      exact ⟨fun hno => (by cases hno), fun hmem => (by cases hmem)⟩
  rw [← hany]
  exact ⟨probing_conflict haccept hkind, published_conflict haccept hkind (hbytes ▸ h.no_answer _)⟩

section Rival

def own : Ipv4Address := ⟨192, 168, 1, 10⟩

def rival : Ipv4Address := ⟨192, 168, 1, 20⟩

/-- An owner of the name. -/
def ownerLan : Lan 1 where
  responders _ :=
    { selectedInterface := ⟨own, 3⟩
      desired := true
      state := .published
      isOpen := true
      handle := .member
      workerLives := true
      startedAddress := own
      probed := true }

/-- What the rival multicasts, as the owner receives it. -/
def fromRival (bytes : Bytes) : MdnsDatagram :=
  ⟨bytes, rival, kMulticastAddress, kMulticastPort, 3, kRequiredResponseHopLimit⟩

theorem conflicting_announcement : Conflicting (buildARecord rival kRecordTtlSeconds)
    (recordMessage rival kRecordTtlSeconds) rival where
  message := messageAt_announcement rival
  short := by rw [length_buildARecord]; decide
  response := isResponse_record rival _
  plain := plain_record rival _
  few := by change 1 ≤ 16; decide
  claims := ⟨_, List.mem_singleton_self _, rfl, rfl, rfl, by change 0 < kRecordTtlSeconds; decide, rfl⟩

theorem announcement_detected : rival ∈ extractARecords (buildARecord rival kRecordTtlSeconds) ∧
    ((handlePublishedDatagram 0 (fromRival (buildARecord rival kRecordTtlSeconds)) {}
      ownerLan).2.responders 0).state = .conflict := by
  obtain ⟨hfound, hconflict⟩ := conflict_detected_iff conflicting_announcement
  have hall : ∀ name ∈ (recordMessage rival kRecordTtlSeconds).names, Admitted name := by
    intro name hmem
    rw [List.mem_singleton.mp hmem]
    exact hostName_admitted
  have haccept : Accepted (fromRival (buildARecord rival kRecordTtlSeconds)) ⟨own, 3⟩ :=
    ⟨by decide, by decide⟩
  exact ⟨hfound.mpr hall,
    ((hconflict 1 0 ownerLan {} _ rfl haccept (by decide)).2 rfl).mpr ⟨rfl, hall⟩⟩

/-- The type of the service that the receiver itself registers. -/
def serviceLabels : List Bytes := [ascii "_hwc", ascii "_tcp", ascii "local"]

/-- The instance behind the service. -/
def serviceInstance : Bytes := encodeName (ascii "harmony-web-companion" :: serviceLabels)

/-- The rival's response with its address and its service. -/
def servicePacket : Bytes :=
  buildHeader ⟨0, kQueryResponse ||| kAuthoritative, 0, 2, 0, 0⟩ ++ encodeName hostLabels ++
    bigEndian 2 kTypeA ++ bigEndian 2 (kClassIn ||| kCacheFlush) ++ bigEndian 4 120 ++
    bigEndian 2 4 ++ rival.bytes ++ encodeName serviceLabels ++ bigEndian 2 12 ++
    bigEndian 2 kClassIn ++ bigEndian 4 120 ++ bigEndian 2 serviceInstance.length ++ serviceInstance

def serviceMessage : Message where
  identifier := 0
  flags := kQueryResponse ||| kAuthoritative
  questions := []
  answers := [hostRecord hostName (kClassIn ||| kCacheFlush) 120 rival,
    ⟨⟨serviceLabels, 0⟩, 12, kClassIn, 120, serviceInstance⟩]
  authorities := []
  additionals := []

theorem messageAt_service : MessageAt servicePacket serviceMessage := by
  have hhost : RecordAt servicePacket 12
      (hostRecord hostName (kClassIn ||| kCacheFlush) 120 rival) 55 :=
    ⟨41, nameAt_host (by decide +kernel), wireLength_hostLabels, by decide +kernel,
      by decide +kernel, by decide +kernel, by decide +kernel, by decide +kernel, rfl⟩
  have hname : NameAt servicePacket 55 serviceLabels 0 72 :=
    nameAt_encode serviceLabels (by decide +kernel) (by decide +kernel)
  have hservice : RecordAt servicePacket 55
      ⟨⟨serviceLabels, 0⟩, 12, kClassIn, 120, serviceInstance⟩ servicePacket.length :=
    ⟨72, hname, by decide +kernel, by decide +kernel, by decide +kernel, by decide +kernel,
      by decide +kernel, by decide +kernel, by decide +kernel⟩
  refine ⟨?_, ?_, ?_, ?_, ?_, ?_, 12, .nil, .cons hhost (.cons hservice .nil)⟩ <;> decide +kernel

/-- The underscore of the service's name throws the conflicting address away. -/
theorem service_hides_conflict : Conflicting servicePacket serviceMessage rival ∧
    Accepted (fromRival servicePacket) (ownerLan.responders 0).selectedInterface ∧
    rival ≠ (ownerLan.responders 0).selectedInterface.address ∧
    rival ∉ extractARecords servicePacket ∧
    ((handlePublishedDatagram 0 (fromRival servicePacket) {} ownerLan).2.responders 0).state =
      .published := by
  refine ⟨⟨messageAt_service, by decide, ?_, ⟨?_, ?_⟩, ?_, _, List.mem_cons_self .., rfl,
    rfl, rfl, ?_, rfl⟩, ⟨by decide, by decide⟩, by decide, by decide,
    by decide⟩
  · change (kQueryResponse ||| kAuthoritative).testBit 15 = true
    decide
  · change (kQueryResponse ||| kAuthoritative) / 2 ^ 11 % 2 ^ 4 = 0
    decide
  · change (kQueryResponse ||| kAuthoritative).testBit 9 = false
    decide
  · change 2 ≤ 16
    decide
  · change 0 < 120
    decide

end Rival

end HarmonyScreen.Proofs.ConflictDetection
