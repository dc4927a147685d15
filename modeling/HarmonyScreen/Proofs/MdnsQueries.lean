import HarmonyScreen.Proofs.MdnsDecode
import HarmonyScreen.Proofs.MdnsPackets

namespace HarmonyScreen.Proofs.MdnsQueries
open Lib Dns Receiver Mdns MdnsNames MdnsMessages MdnsPackets MdnsDecode

variable {query : Bytes} {address : Ipv4Address} {offset next : Nat}

section Reads

@[simp] theorem andThen_none (next : α → Option (Option β)) : andThen (some none) next = some none :=
  rfl

@[simp] theorem andThen_some (a : α) (next : α → Option (Option β)) :
    andThen (some (some a)) next = next a := rfl

theorem readBytes_eq (packet : Bytes) (count offset : Nat) (h : offset + count ≤ packet.length) :
    readBytes packet offset count = some ((packet.drop offset).take count) := by
  induction count generalizing offset with
  | zero => simp [readBytes]
  | succ count ih =>
    have hin : offset < packet.length := by omega
    rw [readBytes, List.getElem?_eq_getElem hin, Option.bind_some, ih (offset + 1) (by omega),
      List.drop_eq_getElem_cons hin, List.take_succ_cons, Option.map_some]

theorem readNumber_two (packet : Bytes) (offset : Nat) :
    readNumber 2 packet offset = some (readU16 packet offset) := by
  unfold readNumber readU16
  by_cases h : offset + 2 ≤ packet.length
  · rw [if_neg (by omega), if_pos h, readBytes_eq _ _ _ h]
    rfl
  · rw [if_pos (by omega), if_neg h]

theorem readNumber_four (packet : Bytes) (offset : Nat) :
    readNumber 4 packet offset = some (readU32 packet offset) := by
  unfold readNumber readU32
  by_cases h : offset + 4 ≤ packet.length
  · rw [if_neg (by omega), if_pos h, readBytes_eq _ _ _ h]
    rfl
  · rw [if_pos (by omega), if_neg h]

theorem readMessageHeader_eq (packet : Bytes) :
    readMessageHeader packet = some (readHeader packet) := by
  simp only [readMessageHeader, readHeader, readNumber_two]
  cases readU16 packet 0 with
  | none => simp
  | some identifier =>
  cases readU16 packet 2 with
  | none => simp
  | some flags =>
  cases readU16 packet 4 with
  | none => simp
  | some questions =>
  cases readU16 packet 6 with
  | none => simp
  | some answers =>
  cases readU16 packet 8 with
  | none => simp
  | some authorities =>
  cases readU16 packet 10 with
  | none => simp
  | some additionals => rfl

theorem readRecord_eq (packet : Bytes) (offset : Nat) :
    readRecord packet offset = some (readRecordFields packet offset) := by
  simp only [readRecord, readRecordFields, readNumber_two, readNumber_four]
  cases readU16 packet offset with
  | none => simp
  | some type =>
  cases readU16 packet (offset + 2) with
  | none => simp
  | some recordClass =>
  cases readU32 packet (offset + 4) with
  | none => simp
  | some ttl =>
  cases readU16 packet (offset + 8) with
  | none => simp
  | some dataLength => rfl

theorem readQuestion_eq (query : Bytes) : readQuestion query = some (questionEnd query) := by
  simp only [readQuestion, questionEnd, readNumber_two, readDecodeName_eq]
  cases decodeName query kHeaderBytes with
  | none => rfl
  | some name =>
  rw [andThen_some]
  dsimp only
  by_cases hvalue : name.value ≠ kHostname
  · rw [if_pos hvalue, if_pos hvalue]
  rw [if_neg hvalue, if_neg hvalue]
  cases readU16 query (kHeaderBytes + name.consumed) with
  | none => simp
  | some type =>
  cases readU16 query (kHeaderBytes + name.consumed + 2) with
  | none => simp
  | some recordClass =>
  simp only [andThen_some]
  split <;> rfl

theorem readKnownAnswers_eq (query : Bytes) (address : Ipv4Address) (count offset : Nat)
    (suppress : Bool) : readKnownAnswers query address count offset suppress =
      some (knownAnswers query address count offset suppress) := by
  induction count generalizing offset suppress with
  | zero => rfl
  | succ count ih =>
    rw [readKnownAnswers, knownAnswers, readDecodeName_eq]
    cases hname : decodeName query offset with
    | none => rfl
    | some name =>
    have hinside := consumed_inside hname
    rw [andThen_some]
    dsimp only
    rw [if_neg (by omega), if_neg (by omega), readRecord_eq]
    cases readRecordFields query (offset + name.consumed) with
    | none => rfl
    | some fields =>
    rw [andThen_some]
    dsimp only
    split
    · rfl
    rename_i hfields
    split
    · rfl
    rename_i hroom
    rw [readBytes_eq _ _ _ (by omega), Option.bind_some, ih]

theorem readAResponse_eq (query : Bytes) (address : Ipv4Address) :
    readAResponse query address = some (buildAResponse query address) := by
  rw [readAResponse, buildAResponse, readMessageHeader_eq]
  split
  · rfl
  cases readHeader query with
  | none => rfl
  | some h =>
  rw [andThen_some]
  dsimp only
  split
  · rfl
  rw [readQuestion_eq]
  cases questionEnd query with
  | none => rfl
  | some offset =>
  rw [andThen_some, readKnownAnswers_eq]
  dsimp only
  cases knownAnswers query address h.answerCount offset false with
  | none => rfl
  | some known =>
  rw [andThen_some]
  dsimp only
  split <;> rfl

end Reads

section Query

/-- A known answer, as far as the responder looks at it. -/
structure KnownAnswer where
  ttl : Nat
  data : Bytes

/-- An IN A record for the fixed name. -/
def AnswerAt (query : Bytes) (offset : Nat) (answer : KnownAnswer) (next : Nat) : Prop :=
  ∃ name recordClass, decodeName query offset = some name ∧ name.value = kHostname ∧
    NumberAt query (offset + name.consumed) 2 1 ∧
    NumberAt query (offset + name.consumed + 2) 2 recordClass ∧ recordClass % 2 ^ 15 = 1 ∧
    NumberAt query (offset + name.consumed + 4) 4 answer.ttl ∧
    NumberAt query (offset + name.consumed + 8) 2 4 ∧ answer.data.length = 4 ∧
    FieldAt query (offset + name.consumed + 10) answer.data ∧ next = offset + name.consumed + 14

/-- The question for the fixed name. -/
def AskedAt (query : Bytes) (next : Nat) : Prop :=
  ∃ name type recordClass, decodeName query 12 = some name ∧ name.value = kHostname ∧
    NumberAt query (12 + name.consumed) 2 type ∧ (type = 1 ∨ type = 255) ∧
    NumberAt query (12 + name.consumed + 2) 2 recordClass ∧ recordClass % 2 ^ 15 = 1 ∧
    next = 12 + name.consumed + 4

/-- A query that is to be answered with an address. -/
structure Asks (query : Bytes) (address : Ipv4Address) (answers : List KnownAnswer) : Prop where
  identifier : NumberAt query 0 2 0
  standard : ∃ flags, NumberAt query 2 2 flags ∧ flags.testBit 15 = false ∧
    flags / 2 ^ 11 % 2 ^ 4 = 0 ∧ flags.testBit 9 = false
  questionCount : NumberAt query 4 2 1
  answerCount : NumberAt query 6 2 answers.length
  authorityCount : NumberAt query 8 2 0
  additionalCount : NumberAt query 10 2 0
  body : ∃ middle, AskedAt query middle ∧ SeriesAt (AnswerAt query) middle answers query.length
  unknown : ∀ answer ∈ answers, ¬ (answer.data = address.bytes ∧ 60 ≤ answer.ttl)

theorem readU16_iff {value : Nat} : readU16 query offset = some value ↔ NumberAt query offset 2 value := by
  rw [numberAt_iff, readU16, readBig_number]
  split <;> simp [*]

theorem readU32_iff {value : Nat} : readU32 query offset = some value ↔ NumberAt query offset 4 value := by
  rw [numberAt_iff, readU32, readBig_number]
  split <;> simp [*]

theorem readHeader_iff {h : Header} : readHeader query = some h ↔
    NumberAt query 0 2 h.identifier ∧ NumberAt query 2 2 h.flags ∧
      NumberAt query 4 2 h.questionCount ∧ NumberAt query 6 2 h.answerCount ∧
      NumberAt query 8 2 h.authorityCount ∧ NumberAt query 10 2 h.additionalCount := by
  simp only [← readU16_iff, readHeader]
  constructor
  · intro hread
    split at hread
    · cases hread
      simp [*]
    · cases hread
  · rintro ⟨h₁, h₂, h₃, h₄, h₅, h₆⟩
    rw [h₁, h₂, h₃, h₄, h₅, h₆]

theorem readRecordFields_iff {fields : RecordFields} : readRecordFields query offset = some fields ↔
    NumberAt query offset 2 fields.type ∧ NumberAt query (offset + 2) 2 fields.recordClass ∧
      NumberAt query (offset + 4) 4 fields.ttl ∧ NumberAt query (offset + 8) 2 fields.dataLength := by
  simp only [← readU16_iff, ← readU32_iff, readRecordFields]
  constructor
  · intro hread
    split at hread
    · cases hread
      simp [*]
    · cases hread
  · rintro ⟨h₁, h₂, h₃, h₄⟩
    rw [h₁, h₂, h₃, h₄]

/-- The mask looks at the response bit, the opcode and the truncation bit. -/
theorem flags_query {flags : Nat} : flags &&& (kQueryResponse ||| kOpcodeMask ||| kTruncated) = 0 ↔
    flags.testBit 15 = false ∧ flags / 2 ^ 11 % 2 ^ 4 = 0 ∧ flags.testBit 9 = false := by
  constructor
  · intro hmask
    have hclear : ∀ k, (kQueryResponse ||| kOpcodeMask ||| kTruncated).testBit k = true →
        flags.testBit k = false := by
      intro k hk
      have hbit := congrArg (Nat.testBit · k) hmask
      simpa [Nat.testBit_and, hk] using hbit
    refine ⟨hclear 15 (by decide), Nat.eq_of_testBit_eq fun k => ?_, hclear 9 (by decide)⟩
    rw [Nat.testBit_mod_two_pow, Nat.testBit_div_two_pow, Nat.zero_testBit]
    by_cases hk : k < 4
    · rw [hclear (k + 11) (by interval_cases k <;> decide), Bool.and_false]
    · simp [hk]
  · rintro ⟨hresponse, hopcode, htruncated⟩
    have hplain : flags &&& (kOpcodeMask ||| kTruncated) = 0 :=
      flags_plain (m := ⟨0, flags, [], [], [], []⟩) ⟨hopcode, htruncated⟩
    have hfirst : flags &&& kQueryResponse = 0 := by
      rw [Nat.and_comm, show kQueryResponse = 2 ^ 15 from rfl, Nat.two_pow_and, hresponse]
      rfl
    rw [Nat.or_assoc, Nat.and_or_distrib_left, hfirst, hplain, Nat.or_zero]

theorem questionEnd_iff : questionEnd query = some next ↔ AskedAt query next := by
  constructor
  · intro h
    unfold questionEnd at h
    split at h
    · cases h
    rename_i name hname
    split at h
    · cases h
    rename_i hvalue
    dsimp only at h
    split at h
    · rename_i type recordClass htype hclass
      split at h
      · cases h
      rename_i hkind
      cases h
      rw [not_or, not_and_or, not_not, not_not, not_not] at hkind
      exact ⟨name, type, recordClass, hname, of_not_not hvalue, readU16_iff.mp htype, hkind.1,
        readU16_iff.mp hclass, hkind.2, rfl⟩
    · cases h
  · rintro ⟨name, type, recordClass, hname, hvalue, htype, hkind, hclass, hplain, rfl⟩
    have hgo : ¬ ((type ≠ kTypeA ∧ type ≠ kTypeAny) ∨ plainClass recordClass ≠ kClassIn) := by
      rw [not_or, not_and_or, not_not, not_not, not_not]
      exact ⟨hkind, hplain⟩
    rw [questionEnd, show kHeaderBytes = 12 from rfl, hname]
    dsimp only
    rw [if_neg (not_not.mpr hvalue), readU16_iff.mpr htype, readU16_iff.mpr hclass]
    dsimp only
    rw [if_neg hgo]

/-- One turn of the loop over the known answers. -/
theorem knownAnswers_succ (count : Nat) (suppress : Bool) (last : Nat × Bool) :
    knownAnswers query address (count + 1) offset suppress = some last ↔ ∃ answer next,
      AnswerAt query offset answer next ∧ knownAnswers query address count next
        (suppress || decide (answer.data = address.bytes ∧ 60 ≤ answer.ttl)) = some last := by
  have hsame : ∀ (data : Bytes) (ttl : Nat), (data == address.bytes &&
      decide (ttl ≥ kRecordTtlSeconds / 2)) = decide (data = address.bytes ∧ 60 ≤ ttl) := by
    intro data ttl
    rw [Bool.decide_and, Bool.beq_eq_decide_eq]
    rfl
  constructor
  · intro h
    rw [knownAnswers] at h
    split at h
    · cases h
    rename_i name hname
    split at h
    · cases h
    dsimp only at h
    split at h
    · cases h
    rename_i fields hfields
    obtain ⟨htype, hclass, httl, hsize⟩ := readRecordFields_iff.mp hfields
    split at h
    · cases h
    rename_i hkind
    simp only [not_or, not_not] at hkind
    obtain ⟨hvalue, hkindA, hplain, hfour⟩ := hkind
    split at h
    · cases h
    rename_i hroom
    rw [hfour] at hsize hroom h
    rw [hkindA] at htype
    have hlength : ((query.drop (offset + name.consumed + 10)).take 4).length = 4 := by
      rw [List.length_take, List.length_drop]
      omega
    refine ⟨⟨fields.ttl, (query.drop (offset + name.consumed + 10)).take 4⟩, _,
      ⟨name, fields.recordClass, hname, hvalue, htype, hclass, hplain, httl, hsize, hlength,
        fieldAt_iff.mpr ⟨?_, ?_⟩, rfl⟩, ?_⟩
    · dsimp only
      omega
    · dsimp only
      rw [hlength]
    · rw [← hsame]
      exact h
  · rintro ⟨answer, _, ⟨name, recordClass, hname, hvalue, htype, hclass, hplain, httl, hsize, hfour,
      hdata, rfl⟩, h⟩
    have hfields := (@readRecordFields_iff _ _ ⟨1, recordClass, answer.ttl, 4⟩).mpr
      ⟨htype, hclass, httl, hsize⟩
    have hdrop := hdata.drop
    have hin := hdata.inside
    rw [hfour] at hdrop hin
    have hinside := consumed_inside hname
    rw [knownAnswers, hname]
    dsimp only
    rw [if_neg (by omega), hfields]
    dsimp only
    rw [if_neg, if_neg (by omega), hdrop, hsame]
    · exact h
    · simp only [not_or, not_not]
      exact ⟨hvalue, rfl, hplain, trivial⟩

theorem knownAnswers_iff (count : Nat) (suppress : Bool) (last : Nat × Bool) :
    knownAnswers query address count offset suppress = some last ↔
      ∃ answers, answers.length = count ∧ SeriesAt (AnswerAt query) offset answers last.1 ∧
        last.2 = (suppress || answers.any fun answer =>
          decide (answer.data = address.bytes ∧ 60 ≤ answer.ttl)) := by
  induction count generalizing offset suppress with
  | zero =>
    rw [knownAnswers]
    constructor
    · intro h
      cases h
      exact ⟨[], rfl, .nil, by simp⟩
    · rintro ⟨answers, hcount, hseries, hlast⟩
      rw [List.length_eq_zero_iff] at hcount
      subst hcount
      cases hseries
      simp only [List.any_nil, Bool.or_false] at hlast
      rw [← hlast]
  | succ count ih =>
    rw [knownAnswers_succ]
    constructor
    · rintro ⟨answer, next, hanswer, h⟩
      obtain ⟨answers, hcount, hseries, hlast⟩ := (ih _).mp h
      exact ⟨answer :: answers, by simp [hcount], .cons hanswer hseries, by
        rw [hlast, List.any_cons, Bool.or_assoc]⟩
    · rintro ⟨answers, hcount, hseries, hlast⟩
      cases hseries with
      | nil => cases hcount
      | @cons _ answer next answers _ hanswer hrest =>
        rw [List.any_cons, ← Bool.or_assoc] at hlast
        exact ⟨answer, next, hanswer,
          (ih _).mpr ⟨answers, by simpa using hcount, hrest, hlast⟩⟩

theorem any_suppresses (answers : List KnownAnswer) :
    (answers.any fun answer => decide (answer.data = address.bytes ∧ 60 ≤ answer.ttl)) = false ↔
      ∀ answer ∈ answers, ¬ (answer.data = address.bytes ∧ 60 ≤ answer.ttl) := by
  simp

theorem answered_iff : buildAResponse query address ≠ [] ↔
    query.length ≤ 512 ∧ ∃ answers, answers.length ≤ 16 ∧ Asks query address answers := by
  constructor
  · intro h
    unfold buildAResponse at h
    split at h
    · exact absurd rfl h
    rename_i hlength
    split at h
    · exact absurd rfl h
    rename_i header hheader
    obtain ⟨hidentifier, hflags, hquestions, hanswers, hauthorities, hadditionals⟩ :=
      readHeader_iff.mp hheader
    split at h
    · exact absurd rfl h
    rename_i hfields
    simp only [not_or, not_not] at hfields
    obtain ⟨hzero, hmask, hone, hfew, hnone, hno⟩ := hfields
    split at h
    · exact absurd rfl h
    rename_i middle hquestion
    split at h
    · exact absurd rfl h
    rename_i last suppress hknown
    split at h
    · exact absurd rfl h
    rename_i hend
    simp only [not_or, not_not, Bool.not_eq_true] at hend
    obtain ⟨answers, hcount, hseries, hsuppress⟩ := (knownAnswers_iff _ _ _).mp hknown
    dsimp only at hseries hsuppress
    rw [hend.1] at hseries
    rw [hend.2, Bool.false_or] at hsuppress
    rw [hzero] at hidentifier
    rw [hone] at hquestions
    rw [hnone] at hauthorities
    rw [hno] at hadditionals
    rw [← hcount] at hanswers hfew
    refine ⟨?_, answers, Nat.not_lt.mp hfew, hidentifier, ⟨header.flags, hflags, flags_query.mp hmask⟩, hquestions,
      hanswers, hauthorities, hadditionals, ⟨middle, questionEnd_iff.mp hquestion, hseries⟩,
      (any_suppresses answers).mp hsuppress.symm⟩
    rw [not_or] at hlength
    exact Nat.not_lt.mp hlength.2
  · rintro ⟨hlength, answers, hfew, hasks⟩
    obtain ⟨flags, hflags, hmask⟩ := hasks.standard
    obtain ⟨middle, hquestion, hseries⟩ := hasks.body
    have hhead := hasks.additionalCount.inside
    have hheader := readHeader_iff (h := ⟨0, flags, 1, answers.length, 0, 0⟩).mpr
      ⟨hasks.identifier, hflags, hasks.questionCount, hasks.answerCount, hasks.authorityCount,
        hasks.additionalCount⟩
    have hknown : knownAnswers query address answers.length middle false =
        some (query.length, false) :=
      (knownAnswers_iff answers.length false (query.length, false)).mpr ⟨answers, rfl, hseries, by
        rw [(any_suppresses answers).mpr hasks.unknown]
        rfl⟩
    unfold buildAResponse
    rw [if_neg (by simp only [kHeaderBytes, kMaximumQueryBytes]; omega), hheader]
    dsimp only
    rw [if_neg, questionEnd_iff.mpr hquestion]
    · dsimp only
      rw [hknown]
      simpa using buildARecord_ne_nil address kRecordTtlSeconds
    · simp only [not_or, not_not, Nat.not_lt]
      exact ⟨trivial, flags_query.mpr hmask, trivial, hfew, trivial, trivial⟩

end Query

section Bound

theorem toNat_letter {c : UInt8} (h : IsLetterDigitHyphen c) : 0x2d ≤ c.toNat ∧ c.toNat ≠ 0x2e := by
  simp only [IsLetterDigitHyphen, UInt8.le_iff_toNat_le, ← UInt8.toNat_inj] at h
  have hvalues : (0x30 : UInt8).toNat = 0x30 ∧ (0x41 : UInt8).toNat = 0x41 ∧
      (0x61 : UInt8).toNat = 0x61 ∧ (0x2d : UInt8).toNat = 0x2d := by decide
  omega

theorem lowercase_letter {c : UInt8} (h : IsLetterDigitHyphen c) : lowercase c ≠ 0x2e := by
  rw [lowercase]
  split
  · rename_i hupper
    simp only [UInt8.le_iff_toNat_le] at hupper
    have hvalues : (0x41 : UInt8).toNat = 0x41 ∧ (0x5a : UInt8).toNat = 0x5a ∧
        (0x20 : UInt8).toNat = 0x20 ∧ (0x2e : UInt8).toNat = 0x2e := by decide
    rw [ne_eq, ← UInt8.toNat_inj, UInt8.toNat_add]
    omega
  · have hne := (toNat_letter h).2
    intro heq
    rw [heq] at hne
    exact hne rfl

theorem hostLabel_of_dotted {labels : List Bytes}
    (hletters : ∀ label ∈ labels, ∀ c ∈ label, IsLetterDigitHyphen c) (h : dotted labels = kHostname) :
    ∃ label ∈ labels, label.length = 21 := by
  have hsplit : labels.map (·.map lowercase) = kHostname.splitOn 0x2e := by
    rw [← h, dotted, List.splitOn_intercalate]
    · intro text hmem hdot
      obtain ⟨label, hlabel, rfl⟩ := List.mem_map.mp hmem
      obtain ⟨c, hc, heq⟩ := List.mem_map.mp hdot
      exact lowercase_letter (hletters label hlabel c hc) heq
    · intro hnil
      rw [List.map_eq_nil_iff] at hnil
      rw [hnil] at h
      exact absurd h (by decide)
  have hlengths : ∃ text ∈ kHostname.splitOn 0x2e, text.length = 21 := by decide
  obtain ⟨text, hmem, hlength⟩ := hlengths
  rw [← hsplit] at hmem
  obtain ⟨label, hlabel, rfl⟩ := List.mem_map.mp hmem
  exact ⟨label, hlabel, by simpa using hlength⟩

theorem number_two {value : Nat} (h : NumberAt query offset 2 value) :
    byteAt query offset * 256 + byteAt query (offset + 1) = value := by
  obtain ⟨digits, hlength, rfl, hfield⟩ := h
  obtain ⟨a, b, rfl⟩ := List.length_eq_two.mp hlength
  rw [byteAt_field hfield, byteAt_field hfield.tail]
  simp [number, Nat.ofDigits]
  omega

/-- The bytes of a label are letters behind its length. -/
theorem label_bytes {label : Bytes} (hletters : ∀ c ∈ label, IsLetterDigitHyphen c)
    (hlength : label.length = 21) (here : FieldAt query offset (label.length.toUInt8 :: label)) :
    byteAt query offset = 21 ∧
      ∀ i, offset < i → i < offset + 22 → 0x2d ≤ byteAt query i := by
  rw [hlength] at here
  refine ⟨byteAt_field here, fun i hlow hhigh => ?_⟩
  obtain ⟨before, after, rfl, rfl⟩ := here
  obtain ⟨j, rfl⟩ := Nat.exists_eq_add_of_lt hlow
  have hj : j < label.length := by omega
  have hget : (before ++ (Nat.toUInt8 21 :: label) ++ after).getD (before.length + j + 1) 0 =
      label[j] := by
    rw [List.append_assoc, List.getD_eq_getElem?_getD, List.getElem?_append_right (by omega),
      show before.length + j + 1 - before.length = j + 1 by omega, List.cons_append,
      List.getElem?_cons_succ, List.getElem?_append_left hj, List.getElem?_eq_getElem hj,
      Option.getD_some]
  rw [byteAt, hget]
  exact (toNat_letter (hletters _ (List.getElem_mem hj))).1

/-- The long label can stand neither in the header nor over the type and class. -/
theorem long_query {answers : List KnownAnswer} (h : Asks query address answers) :
    38 ≤ query.length := by
  obtain ⟨middle, ⟨name, type, recordClass, hname, hvalue, htype, hkind, hclass, hplain, -⟩, -⟩ := h.body
  obtain ⟨labels, targets, next, hto, rfl⟩ := (decodeName_iff query 12 name).mp hname
  obtain ⟨label, hmem, hlength⟩ := hostLabel_of_dotted hto.letters hvalue
  obtain ⟨start, here⟩ := hto.path.label_mem hmem
  obtain ⟨hfirst, hletters⟩ := label_bytes (hto.letters label hmem) hlength here
  have hinside := consumed_inside hname
  dsimp only at htype hclass hinside
  obtain ⟨place, hplace⟩ : ∃ place, place = 12 + (next - 12) := ⟨_, rfl⟩
  rw [← hplace] at htype hclass
  have hlabel := here.inside
  have hend := hclass.inside
  simp only [List.length_cons, hlength] at hlabel
  have hrun : ∀ i, start ≤ i → i < start + 22 → byteAt query i ≠ 0 := by
    intro i hlow hhigh
    rcases Nat.eq_or_lt_of_le hlow with rfl | hlow
    · omega
    · have := hletters i hlow hhigh
      omega
  have hheader : 12 ≤ start := by
    have hauthority : byteAt query 8 * 256 + byteAt query 9 = 0 := number_two h.authorityCount
    have hadditional : byteAt query 10 * 256 + byteAt query 11 = 0 := number_two h.additionalCount
    by_contra hbefore
    rcases Nat.lt_or_ge 8 start with hlate | hearly
    · have hmiss := hrun 11 (by omega) (by omega)
      omega
    · have hmiss := hrun 8 hearly (by omega)
      omega
  -- the bytes of the type and the class are 0, 1 or 255, 0 or 128, and 1
  have htypes := number_two htype
  have hclasses : byteAt query (place + 2) * 256 + byteAt query (place + 3) = recordClass :=
    number_two hclass
  have hhigh := byteAt_lt query place
  have hlow := byteAt_lt query (place + 1)
  have hclassHigh := byteAt_lt query (place + 2)
  have hclassLow := byteAt_lt query (place + 3)
  rcases Nat.lt_or_ge place start with hafter | hbefore
  · have hfar : place + 4 ≤ start := by
      by_contra hnear
      obtain rfl | rfl | rfl : start = place + 1 ∨ start = place + 2 ∨ start = place + 3 := by omega
      · omega
      · omega
      · omega
    omega
  · have hfar : start + 22 ≤ place := by
      by_contra hnear
      have hmiss := hrun place hbefore (by omega)
      omega
    omega

end Bound

/-- Just the queries for the name are answered, each without a read outside of it, and the answer
is small and gives the address. -/
theorem query_answered (query : Bytes) (address : Ipv4Address) :
    readAResponse query address = some (buildAResponse query address) ∧
    (buildAResponse query address ≠ [] →
      (∃ answers, Asks query address answers) ∧
      buildAResponse query address = buildARecord address 120 ∧
      (buildAResponse query address).length ≤ 64 ∧
      2 * (buildAResponse query address).length ≤ 3 * query.length ∧
      extractARecords (buildAResponse query address) = [address]) ∧
    ∀ answers, Asks query address answers → answers.length ≤ 16 → query.length ≤ 512 →
      buildAResponse query address = buildARecord address 120 := by
  have hrecord : buildAResponse query address ≠ [] →
      buildAResponse query address = buildARecord address 120 :=
    fun hsome => (buildAResponse_cases query address).resolve_left hsome
  refine ⟨readAResponse_eq query address, fun hsome => ?_, fun answers hasks hfew hlength => ?_⟩
  · obtain ⟨-, answers, -, hasks⟩ := answered_iff.mp hsome
    have hlong := long_query hasks
    rw [hrecord hsome, length_buildARecord]
    refine ⟨⟨answers, hasks⟩, rfl, by decide, by omega, ?_⟩
    exact extract_announcement address
  · apply hrecord
    rw [answered_iff]
    exact ⟨hlength, answers, hfew, hasks⟩

/-- The query of a computer that looks for the name. -/
theorem query_answered_own : buildAResponse buildAQuery ⟨192, 168, 1, 10⟩ ≠ [] ∧
    (∃ answers, Asks buildAQuery ⟨192, 168, 1, 10⟩ answers) ∧
    extractARecords (buildAResponse buildAQuery ⟨192, 168, 1, 10⟩) = [⟨192, 168, 1, 10⟩] := by
  have hsome : buildAResponse buildAQuery ⟨192, 168, 1, 10⟩ ≠ [] := by decide
  obtain ⟨-, hanswered, -⟩ := query_answered buildAQuery ⟨192, 168, 1, 10⟩
  obtain ⟨hasked, -, -, -, hextracts⟩ := hanswered hsome
  exact ⟨hsome, hasked, hextracts⟩

end HarmonyScreen.Proofs.MdnsQueries
