import Mathlib.Data.Nat.Bitwise
import HarmonyScreen.Proofs.MdnsNames

namespace HarmonyScreen.Proofs.MdnsMessages
open Lib Dns Receiver Mdns MdnsNames

variable {packet : Bytes} {offset next value : Nat} {m : Message}

/-- The labels of the fixed name. -/
def hostLabels : List Bytes := kHostname.splitOn 0x2e

theorem nameText_hostLabels : nameText hostLabels = kHostname := by decide

theorem foldl_joinLabel (labels : List Bytes) (output : Bytes) :
    labels.foldl joinLabel output = (labels.map (·.map lowercase)).foldl
      (fun output label => (if output = [] then output else output ++ [0x2e]) ++ label) output := by
  rw [List.foldl_map]
  congr
  funext output label
  rw [joinLabel, show toLower = lowercase from funext toLower_lowercase]

/-- The case of the letters is lost. -/
theorem nameText_is {name : Name} {labels : List Bytes} (h : name.Is labels) :
    nameText name.labels = nameText labels := by
  rw [nameText, nameText, foldl_joinLabel, foldl_joinLabel labels, h]

theorem readU16_number (h : NumberAt packet offset 2 value) :
    readU16 packet offset = some value := by
  obtain ⟨digits, hlen, rfl, hfield⟩ := h
  have hin := hfield.inside
  rw [readU16, if_pos (by omega), ← hlen, hfield.drop, readBig_number]

theorem readU32_number (h : NumberAt packet offset 4 value) :
    readU32 packet offset = some value := by
  obtain ⟨digits, hlen, rfl, hfield⟩ := h
  have hin := hfield.inside
  rw [readU32, if_pos (by omega), ← hlen, hfield.drop, readBig_number]

/-- The header of a message. -/
def headerOf (m : Message) : Header :=
  ⟨m.identifier, m.flags, m.questions.length, m.answers.length, m.authorities.length,
    m.additionals.length⟩

theorem readHeader_message (h : MessageAt packet m) : readHeader packet = some (headerOf m) := by
  rw [readHeader, readU16_number h.identifier, readU16_number h.flags,
    readU16_number h.questionCount, readU16_number h.answerCount,
    readU16_number h.authorityCount, readU16_number h.additionalCount]
  rfl

theorem recordCount_headerOf (m : Message) : (headerOf m).recordCount = m.records.length := by
  simp [headerOf, Header.recordCount, Message.records, Nat.add_assoc]

/-- Nothing is asked for and nothing cut off. -/
def Plain (m : Message) : Prop := m.opcode = 0 ∧ m.truncated = false

/-- The mask looks at the opcode and the truncation bit. -/
theorem flags_plain (h : Plain m) : m.flags &&& (kOpcodeMask ||| kTruncated) = 0 := by
  obtain ⟨hop, htc⟩ := h
  unfold Message.opcode at hop
  unfold Message.truncated at htc
  refine Nat.eq_of_testBit_eq fun k => ?_
  rw [Nat.testBit_and, Nat.zero_testBit]
  by_cases hk : k < 15
  · have hmask : (kOpcodeMask ||| kTruncated).testBit k = true → k = 9 ∨ 11 ≤ k := by
      interval_cases k <;> decide
    by_cases hbit : (kOpcodeMask ||| kTruncated).testBit k = true
    · rcases hmask hbit with rfl | hge
      · rw [htc, Bool.false_and]
      · have hoff : m.flags.testBit k = false := by
          rw [Nat.testBit_eq_decide_div_mod_eq, decide_eq_false_iff_not]
          interval_cases k <;> omega
        rw [hoff, Bool.false_and]
    · rw [Bool.not_eq_true] at hbit
      rw [hbit, Bool.and_false]
  · rw [Nat.testBit_lt_two_pow (Nat.lt_of_lt_of_le (by decide : kOpcodeMask ||| kTruncated < 2 ^ 15)
      (Nat.pow_le_pow_right (by decide) (by omega))), Bool.and_false]

theorem isResponse_headerOf (m : Message) : (headerOf m).isResponse = m.isResponse := by
  have hbit : m.flags &&& kQueryResponse = 2 ^ 15 * (m.flags.testBit 15).toNat := by
    rw [Nat.and_comm]
    exact Nat.two_pow_and m.flags 15
  rw [Header.isResponse, Message.isResponse, headerOf, hbit]
  cases m.flags.testBit 15 <;> rfl

theorem skipQuestions_series {qs : List Question} (h : SeriesAt (QuestionAt packet) offset qs next) :
    skipQuestions packet qs.length offset =
      if ∀ q ∈ qs, Admitted q.name then some next else none := by
  induction h with
  | nil => simp [skipQuestions]
  | @cons offset q middle qs behind first rest ih =>
    obtain ⟨past, hname, hlen, htype, hclass, rfl⟩ := first
    have hlt := hname.lt_next
    have hin := hclass.inside
    rw [List.length_cons, skipQuestions, decodeName_name hname hlen]
    by_cases hq : Admitted q.name
    · have hpast : offset + (past - offset) = past := by omega
      rw [if_pos hq]
      dsimp only
      rw [if_neg (by omega), hpast, if_neg (by omega), ih]
      simp [hq]
    · rw [if_neg hq, if_neg fun h => hq (h q (List.mem_cons_self ..))]

/-- The address a record gives to the fixed name. -/
def addressOf (r : Record) : List Ipv4Address :=
  if r.ttl > 0 ∧ nameText r.name.labels = kHostname ∧ r.type = kTypeA ∧
      plainClass r.recordClass = kClassIn ∧ r.data.length = 4 then
    (Ipv4Address.ofBytes r.data).toList
  else []

theorem recordLoop_series {rs : List Record} (h : SeriesAt (RecordAt packet) offset rs next)
    (addresses : List Ipv4Address) :
    recordLoop packet rs.length offset addresses =
      if ∀ r ∈ rs, Admitted r.name then some (addresses ++ rs.flatMap addressOf, next) else none := by
  induction h generalizing addresses with
  | nil => simp [recordLoop]
  | @cons offset r middle rs behind first rest ih =>
    obtain ⟨past, hname, hlen, htype, hclass, httl, hsize, hdata, rfl⟩ := first
    have hlt := hname.lt_next
    have hin := hdata.inside
    rw [List.length_cons, recordLoop, decodeName_name hname hlen]
    by_cases hr : Admitted r.name
    · have hpast : offset + (past - offset) = past := by omega
      have hfields : readRecordFields packet past =
          some ⟨r.type, r.recordClass, r.ttl, r.data.length⟩ := by
        rw [readRecordFields, readU16_number htype, readU16_number hclass, readU32_number httl,
          readU16_number hsize]
      have hfound : (if r.ttl > 0 ∧ nameText r.name.labels = kHostname ∧ r.type = kTypeA ∧
          plainClass r.recordClass = kClassIn ∧ r.data.length = 4 then
            (Ipv4Address.ofBytes ((packet.drop (past + 10)).take 4)).toList
          else []) = addressOf r := by
        rw [addressOf]
        split
        · rename_i hgo
          have hdrop := hdata.drop
          rw [hgo.2.2.2.2] at hdrop
          rw [hdrop]
        · rfl
      rw [if_pos hr]
      dsimp only
      rw [if_neg (by omega), hpast, hfields]
      dsimp only
      rw [if_neg (by omega), hfound, ih]
      simp [hr, List.append_assoc]
    · rw [if_neg hr, if_neg fun h => hr (h r (List.mem_cons_self ..))]

/-- The reader takes a message when it takes every name in it. -/
theorem extractARecords_message (h : MessageAt packet m) (hlen : packet.length ≤ 512)
    (hplain : Plain m) (hcount : m.records.length ≤ kMaximumRecords)
    (hcarries : (headerOf m).carriesRecords = true) :
    extractARecords packet =
      if ∀ name ∈ m.names, Admitted name then m.records.flatMap addressOf else [] := by
  obtain ⟨middle, hquestions, hrecords⟩ := h.body
  have hstart : SeriesAt (QuestionAt packet) kHeaderBytes m.questions middle := hquestions
  have hheader := h.additionalCount.inside
  have hask : ¬ (packet.length < kHeaderBytes ∨ packet.length > kMaximumQueryBytes) := by
    simp only [kHeaderBytes, kMaximumQueryBytes]
    omega
  have hflags : ¬ ((headerOf m).flags &&& (kOpcodeMask ||| kTruncated) ≠ 0 ∨
      (!(headerOf m).carriesRecords) = true ∨ (headerOf m).recordCount > kMaximumRecords) := by
    rw [recordCount_headerOf, hcarries, show (headerOf m).flags = m.flags from rfl, flags_plain hplain]
    simpa using hcount
  rw [extractARecords, if_neg hask, readHeader_message h]
  dsimp only
  rw [if_neg hflags, show (headerOf m).questionCount = m.questions.length from rfl,
    skipQuestions_series hstart, recordCount_headerOf]
  by_cases hq : ∀ q ∈ m.questions, Admitted q.name
  · rw [if_pos hq]
    dsimp only
    rw [recordLoop_series hrecords]
    by_cases hr : ∀ r ∈ m.records, Admitted r.name
    · rw [if_pos hr, if_pos]
      · simp
      · simp only [Message.names, List.mem_append, List.mem_map]
        rintro name (⟨q, hmem, rfl⟩ | ⟨r, hmem, rfl⟩)
        · exact hq q hmem
        · exact hr r hmem
    · rw [if_neg hr, if_neg]
      intro hall
      exact hr fun r hmem => hall _ (List.mem_append_right _ (List.mem_map_of_mem hmem))
  · rw [if_neg hq, if_neg]
    intro hall
    exact hq fun q hmem => hall _ (List.mem_append_left _ (List.mem_map_of_mem hmem))

end HarmonyScreen.Proofs.MdnsMessages
