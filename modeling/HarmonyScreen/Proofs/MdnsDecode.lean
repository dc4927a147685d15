import HarmonyScreen.Proofs.MdnsMessages
import HarmonyScreen.Receiver.MdnsReads

namespace HarmonyScreen.Proofs.MdnsDecode
open Lib Dns Receiver Mdns MdnsNames MdnsMessages

variable {packet : Bytes} {offset cursor next fuel consumed : Nat} {jumped : Bool}
  {visited targets : List Nat} {output : Bytes} {labels : List Bytes}

section Reads

theorem readByte_eq (h : offset < packet.length) :
    readByte packet offset = some (byteAt packet offset) := by
  rw [readByte, List.getElem?_eq_getElem h, Option.map_some, byteAt, List.getD_eq_getElem _ _ h]

theorem readLabel_eq (length : Nat) (cursor : Nat) (h : cursor + length ≤ packet.length) :
    readLabel packet cursor length =
      some (if ((packet.drop cursor).take length).all validLabelCharacter then
        some ((packet.drop cursor).take length) else none) := by
  induction length generalizing cursor with
  | zero => simp [readLabel]
  | succ length ih =>
    have hcursor : cursor < packet.length := by omega
    have hsplit : (packet.drop cursor).take (length + 1) =
        packet[cursor] :: (packet.drop (cursor + 1)).take length := by
      rw [List.drop_eq_getElem_cons hcursor, List.take_succ_cons]
    rw [readLabel, List.getElem?_eq_getElem hcursor, Option.bind_some, ih (cursor + 1) (by omega),
      hsplit, List.all_cons]
    cases validLabelCharacter packet[cursor] with
    | false => simp
    | true =>
      simp only [Bool.not_true, Bool.false_eq_true, if_false, Bool.true_and, Option.map_some]
      split <;> simp

/-- Every turn leaves fewer pointers to follow, or less of the packet. -/
theorem readNameLoop_eq (fuel cursor consumed : Nat) (jumped : Bool) (visited : List Nat)
    (output : Bytes) (hroom : visited.length ≤ kMaximumPointerJumps)
    (hfuel : (kMaximumPointerJumps - visited.length) * (packet.length + 1) +
      (packet.length - cursor) < fuel) :
    readNameLoop packet fuel cursor consumed jumped visited output =
      some (nameLoop packet fuel cursor consumed jumped visited output) := by
  induction fuel generalizing cursor consumed jumped visited output with
  | zero => omega
  | succ fuel ih =>
    rw [readNameLoop, nameLoop]
    by_cases hend : cursor ≥ packet.length
    · rw [if_pos hend, if_pos hend]
    rw [if_neg hend, if_neg hend, readByte_eq (by omega), Option.bind_some]
    dsimp only
    by_cases hpointer : byteAt packet cursor ≥ 0xc0
    · rw [if_pos hpointer, if_pos hpointer]
      by_cases hfull : cursor + 1 ≥ packet.length ∨ visited.length ≥ kMaximumPointerJumps
      · rw [if_pos hfull, if_pos hfull]
      rw [if_neg hfull, if_neg hfull, readByte_eq (by omega), Option.bind_some]
      split
      · rfl
      · apply ih
        · simp only [List.length_append, List.length_singleton]
          omega
        · have hless : kMaximumPointerJumps - visited.length =
              kMaximumPointerJumps - (visited.length + 1) + 1 := by omega
          rw [hless, Nat.add_mul, Nat.one_mul] at hfuel
          simp only [List.length_append, List.length_singleton]
          omega
    rw [if_neg hpointer, if_neg hpointer]
    by_cases hlong : byteAt packet cursor > 63
    · rw [if_pos hlong, if_pos hlong]
    rw [if_neg hlong, if_neg hlong]
    by_cases hzero : byteAt packet cursor = 0
    · rw [if_pos hzero, if_pos hzero]
      split <;> rfl
    rw [if_neg hzero, if_neg hzero]
    by_cases hshort : byteAt packet cursor > packet.length - (cursor + 1)
    · rw [if_pos hshort, if_pos hshort]
    rw [if_neg hshort, if_neg hshort, readLabel_eq _ _ (by omega), Option.bind_some]
    cases ((packet.drop (cursor + 1)).take (byteAt packet cursor)).all validLabelCharacter with
    | false => rfl
    | true =>
      simp only [if_true, Bool.not_true, Bool.false_eq_true, if_false]
      split
      · rfl
      · apply ih _ _ _ _ _ hroom
        omega

/-- The loop ends within the turns, and reads nothing outside the packet. -/
theorem readDecodeName_eq (packet : Bytes) (offset : Nat) :
    readDecodeName packet offset = some (decodeName packet offset) := by
  unfold readDecodeName decodeName
  split
  · rfl
  · apply readNameLoop_eq
    · exact Nat.zero_le _
    · simp only [List.length_nil, nameFuel, Nat.sub_zero]
      rw [Nat.add_mul kMaximumPointerJumps 1]
      omega

end Reads

section Grammar

theorem toUInt8_byteAt (h : offset < packet.length) :
    packet[offset]? = some (byteAt packet offset).toUInt8 := by
  rw [byteAt, List.getD_eq_getElem _ _ h, List.getElem?_eq_getElem h]
  simp [Nat.toUInt8]

theorem fieldAt_byte {bytes : Bytes} (h : offset < packet.length)
    (rest : FieldAt packet (offset + 1) bytes) :
    FieldAt packet offset ((byteAt packet offset).toUInt8 :: bytes) :=
  .cons (toUInt8_byteAt h) rest

theorem byteAt_lt (packet : Bytes) (offset : Nat) : byteAt packet offset < 256 :=
  (packet.getD offset 0).toNat_lt

/-- A pointer at the cursor, read as the loop reads it. -/
theorem fieldAt_pointer (h : cursor + 1 < packet.length) (hbits : byteAt packet cursor ≥ 0xc0) :
    FieldAt packet cursor
      [(0xc0 + (byteAt packet cursor % 0x40 * 256 + byteAt packet (cursor + 1)) / 256).toUInt8,
        ((byteAt packet cursor % 0x40 * 256 + byteAt packet (cursor + 1)) % 256).toUInt8] := by
  have hhigh := byteAt_lt packet cursor
  have hlow := byteAt_lt packet (cursor + 1)
  have hfirst : 0xc0 + (byteAt packet cursor % 0x40 * 256 + byteAt packet (cursor + 1)) / 256 =
      byteAt packet cursor := by omega
  have hsecond : (byteAt packet cursor % 0x40 * 256 + byteAt packet (cursor + 1)) % 256 =
      byteAt packet (cursor + 1) := by omega
  rw [hfirst, hsecond]
  exact fieldAt_byte (by omega) (fieldAt_byte h (fieldAt_nil (by omega)))

/-- A label at the cursor, read as the loop reads it. -/
theorem fieldAt_label (h : cursor + 1 + byteAt packet cursor ≤ packet.length) :
    ((packet.drop (cursor + 1)).take (byteAt packet cursor)).length = byteAt packet cursor ∧
      FieldAt packet cursor
        (((packet.drop (cursor + 1)).take (byteAt packet cursor)).length.toUInt8 ::
          (packet.drop (cursor + 1)).take (byteAt packet cursor)) := by
  have hlength : ((packet.drop (cursor + 1)).take (byteAt packet cursor)).length =
      byteAt packet cursor := by
    rw [List.length_take, List.length_drop]
    omega
  refine ⟨hlength, ?_⟩
  rw [hlength]
  apply fieldAt_byte (by omega)
  rw [fieldAt_iff, hlength]
  exact ⟨h, rfl⟩

/-- What is read is a path. -/
theorem path_of_nameLoop {name : ParsedName}
    (h : nameLoop packet fuel cursor consumed jumped visited output = some name) :
    ∃ labels targets next, PathAt packet cursor labels targets next := by
  fun_induction nameLoop packet fuel cursor consumed jumped visited output with
  | case5 fuel cursor consumed jumped visited output hin length hbits hroom pointer hpointer ih =>
    obtain ⟨labels, targets, next, hpath⟩ := ih h
    have hhigh := byteAt_lt packet cursor
    have hlow := byteAt_lt packet (cursor + 1)
    exact ⟨labels, _ :: targets, cursor + 2, .pointer (by omega) (by omega)
      (fieldAt_pointer (by omega) hbits) hpath⟩
  | case7 fuel cursor consumed jumped visited output hin length hbits hshort _ hzero =>
    have here : FieldAt packet cursor [(byteAt packet cursor).toUInt8] :=
      fieldAt_byte (by omega) (fieldAt_nil (by omega))
    rw [show byteAt packet cursor = 0 from hzero] at here
    exact ⟨[], [], cursor + 1, .root here⟩
  | case12 fuel cursor consumed jumped visited output hin length hbits hshort after consumed' hzero
      hinside label hvalid output' hlong ih =>
    obtain ⟨labels, targets, next, hpath⟩ := ih h
    have hafter : after = cursor + 1 := rfl
    have hread : length = byteAt packet cursor := rfl
    have hin : cursor + 1 + byteAt packet cursor ≤ packet.length := by omega
    obtain ⟨hlength, here⟩ := fieldAt_label hin
    have hlabel : label.length = length := hlength
    refine ⟨label :: labels, targets, next, .label ?_ ?_ here ?_⟩
    · exact List.ne_nil_of_length_pos (by omega)
    · omega
    · rw [hlabel]
      exact hpath
  | _ => cases h

/-- What the standard asks of a name, and the limits on a path to it. -/
structure DecodesTo (packet : Bytes) (offset : Nat) (labels : List Bytes) (targets : List Nat)
    (next : Nat) : Prop where
  path : PathAt packet offset labels targets next
  jumps : targets.length ≤ 16
  distinct : targets.Nodup
  letters : ∀ label ∈ labels, ∀ c ∈ label, IsLetterDigitHyphen c
  nonempty : 1 ≤ (dotted labels).length
  short : (dotted labels).length ≤ 253

theorem validLabelCharacter_iff (c : UInt8) : validLabelCharacter c = true ↔ IsLetterDigitHyphen c := by
  simp [validLabelCharacter, isUpper, IsLetterDigitHyphen, or_assoc]

theorem foldl_joinLabel_cons (labels : List Bytes) (hne : output ≠ []) :
    labels.foldl joinLabel output = [0x2e].intercalate (output :: labels.map (·.map lowercase)) := by
  induction labels generalizing output with
  | nil => simp
  | cons label labels ih =>
    have hjoin : joinLabel output label = output ++ 0x2e :: label.map lowercase := by
      rw [joinLabel, if_neg hne, show toLower = lowercase from funext toLower_lowercase]
      simp
    rw [List.foldl_cons, ih (by simp [joinLabel, hne]), hjoin, List.map_cons]
    cases labels with
    | nil => simp
    | cons next labels => simp [List.intercalate_cons_cons]

theorem nameText_dotted (hne : ∀ label ∈ labels, label ≠ []) : nameText labels = dotted labels := by
  cases labels with
  | nil => rfl
  | cons label labels =>
    have hlabel := hne label (List.mem_cons_self ..)
    have hjoin : joinLabel [] label = label.map lowercase := by
      rw [joinLabel, if_pos rfl, show toLower = lowercase from funext toLower_lowercase,
        List.nil_append]
    rw [nameText, List.foldl_cons, hjoin, foldl_joinLabel_cons _ (by simpa using hlabel), dotted,
      List.map_cons]

theorem dotted_ne_nil (hne : ∀ label ∈ labels, label ≠ []) (hsome : labels ≠ []) :
    1 ≤ (dotted labels).length := by
  cases labels with
  | nil => exact absurd rfl hsome
  | cons label labels =>
    have hlabel := List.length_pos_iff.mpr (hne label (List.mem_cons_self ..))
    cases labels with
    | nil =>
      simp only [dotted, List.map_cons, List.map_nil, List.intercalate_singleton, List.length_map]
      omega
    | cons next labels =>
      simp only [dotted, List.map_cons, List.intercalate_cons_cons, List.length_append,
        List.length_map]
      omega

theorem accepted_iff (h : PathAt packet offset labels targets next) :
    Accepted [] targets [] labels ↔ DecodesTo packet offset labels targets next := by
  have hne : ∀ label ∈ labels, label ≠ [] := fun _ hmem => (h.label_length hmem).1
  have htext := nameText_dotted hne
  rw [nameText] at htext
  rw [Accepted, htext]
  constructor
  · rintro ⟨hvalid, hjumps, hdistinct, hsome, hshort⟩
    rw [List.length_nil, Nat.zero_add] at hjumps
    refine ⟨h, hjumps, hdistinct, fun label hmem c hc => ?_, ?_, hshort⟩
    · rw [← validLabelCharacter_iff]
      exact List.all_eq_true.mp (hvalid label hmem) c hc
    · apply dotted_ne_nil hne
      simpa using hsome
  · intro hto
    have hjumps : ([] : List Nat).length + targets.length ≤ kMaximumPointerJumps := by
      rw [List.length_nil, Nat.zero_add]
      exact hto.jumps
    refine ⟨fun label hmem => List.all_eq_true.mpr fun c hc => ?_, hjumps, hto.distinct, .inr fun hnone => ?_, hto.short⟩
    · rw [validLabelCharacter_iff]
      exact hto.letters label hmem c hc
    · have := hto.nonempty
      rw [hnone] at this
      exact absurd this (by decide)

theorem decodeName_iff (packet : Bytes) (offset : Nat) (name : ParsedName) :
    decodeName packet offset = some name ↔ ∃ labels targets next,
      DecodesTo packet offset labels targets next ∧ name = ⟨dotted labels, next - offset⟩ := by
  constructor
  · intro h
    have hloop := h
    unfold decodeName at hloop
    split at hloop
    · cases hloop
    obtain ⟨labels, targets, next, hpath⟩ := path_of_nameLoop hloop
    rw [decodeName_path hpath] at h
    split at h
    · rename_i hgo
      cases h
      refine ⟨labels, targets, next, (accepted_iff hpath).mp hgo, ?_⟩
      rw [← nameText_dotted fun label hmem => (hpath.label_length hmem).1, nameText]
    · cases h
  · rintro ⟨labels, targets, next, hto, rfl⟩
    rw [decodeName_path hto.path, if_pos ((accepted_iff hto.path).mpr hto),
      ← nameText_dotted fun label hmem => (hto.path.label_length hmem).1, nameText]

theorem consumed_inside {name : ParsedName} (h : decodeName packet offset = some name) :
    1 ≤ name.consumed ∧ name.consumed ≤ packet.length - offset := by
  obtain ⟨labels, targets, next, hto, rfl⟩ := (decodeName_iff packet offset name).mp h
  have hlt := hto.path.lt_next
  have hle := hto.path.next_le
  dsimp only
  omega

/-- The decoder accepts just the names of its grammar, reads nothing outside the packet, and
what it consumes lies in the packet. -/
theorem name_decoded (packet : Bytes) (offset : Nat) :
    readDecodeName packet offset = some (decodeName packet offset) ∧
    (∀ name, decodeName packet offset = some name ↔ ∃ labels targets next,
      DecodesTo packet offset labels targets next ∧ name = ⟨dotted labels, next - offset⟩) ∧
    ∀ name, decodeName packet offset = some name →
      1 ≤ name.consumed ∧ name.consumed ≤ packet.length - offset :=
  ⟨readDecodeName_eq packet offset, decodeName_iff packet offset, fun _ => consumed_inside⟩

end Grammar

end HarmonyScreen.Proofs.MdnsDecode
