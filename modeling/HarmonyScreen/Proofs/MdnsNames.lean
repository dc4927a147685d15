import HarmonyScreen.Lib.Dns
import HarmonyScreen.Receiver.MdnsProtocol

namespace HarmonyScreen.Proofs.MdnsNames
open Lib Dns Receiver Mdns

theorem readBig_number (source : Bytes) : readBig source = number source := by
  induction source with
  | nil => simp [readBig, number]
  | cons b source ih => rw [readBig_cons, number_cons, ih]

theorem toLower_lowercase (value : UInt8) : toLower value = lowercase value := by
  simp [toLower, isUpper, lowercase]

variable {packet : Bytes} {offset cursor pointers next fuel consumed : Nat} {jumped : Bool}
  {visited targets : List Nat} {output : Bytes} {label : Bytes} {labels : List Bytes}

theorem byteAt_field {b : UInt8} {bytes : Bytes} (h : FieldAt packet offset (b :: bytes)) :
    byteAt packet offset = b.toNat := by
  simp [byteAt, h.getElem?]

section Turns
variable (fuel consumed jumped visited output)

/-- The turn at the end of a name. -/
theorem nameLoop_root (here : FieldAt packet cursor [0]) :
    nameLoop packet (fuel + 1) cursor consumed jumped visited output =
      if output ≠ [] ∧ output.length ≤ 253 then
        some ⟨output, if jumped then consumed else consumed + 1⟩
      else none := by
  have hin := here.inside
  simp only [List.length_cons, List.length_nil] at hin
  rw [nameLoop, if_neg (by omega), byteAt_field here]
  simp

/-- The turn that reads a label. -/
theorem nameLoop_label (nonempty : label ≠ []) (short : label.length ≤ 63)
    (here : FieldAt packet cursor (label.length.toUInt8 :: label)) :
    nameLoop packet (fuel + 1) cursor consumed jumped visited output =
      if label.all validLabelCharacter = true ∧ (joinLabel output label).length ≤ 253 then
        nameLoop packet fuel (cursor + 1 + label.length)
          (if jumped then consumed else consumed + 1 + label.length) jumped visited
          (joinLabel output label)
      else none := by
  have hin := here.inside
  have hpos := List.length_pos_iff.mpr nonempty
  simp only [List.length_cons] at hin
  rw [nameLoop, if_neg (by omega)]
  simp only [byteAt_field here, toNat_length short, here.tail.drop]
  rw [if_neg (by omega), if_neg (by omega), if_neg (by omega), if_neg (by omega)]
  cases jumped <;> cases label.all validLabelCharacter <;>
    simp only [Bool.not_true, Bool.not_false, if_true, Bool.false_eq_true, if_false, false_and,
      true_and] <;>
    split <;> rename_i h <;> first | rfl | rw [if_neg (by omega)] | rw [if_pos (by omega)]

/-- The turn that follows a pointer. -/
theorem nameLoop_pointer {target : Nat} (inside : target < packet.length) (small : target < 2 ^ 14)
    (here : FieldAt packet cursor [(0xc0 + target / 256).toUInt8, (target % 256).toUInt8]) :
    nameLoop packet (fuel + 1) cursor consumed jumped visited output =
      if visited.length < kMaximumPointerJumps ∧ target ∉ visited then
        nameLoop packet fuel target (if jumped then consumed else consumed + 2) true
          (visited ++ [target]) output
      else none := by
  have hin := here.inside
  simp only [List.length_cons, List.length_nil] at hin
  have htarget : (0xc0 + target / 256) % 0x40 * 256 + target % 256 = target := by omega
  rw [nameLoop, if_neg (by omega)]
  simp only [byteAt_field here, byteAt_field here.tail, toNat_pointer_high small,
    toNat_pointer_low, htarget]
  rw [if_pos (by omega)]
  by_cases hroom : visited.length < kMaximumPointerJumps
  · rw [if_neg (by omega)]
    by_cases hseen : target ∈ visited
    · rw [if_pos (.inr hseen), if_neg (by simp [hseen])]
    · simp [hseen, hroom, show ¬ packet.length ≤ target by omega]
  · rw [if_pos (by omega), if_neg (by simp [hroom])]

end Turns

/-- How much of a name's length the text so far takes up. -/
def used (output : Bytes) : Nat := if output = [] then 0 else output.length + 1

theorem used_joinLabel (nonempty : label ≠ []) :
    used (joinLabel output label) = used output + (label.length + 1) := by
  unfold used joinLabel
  by_cases h : output = []
  · simp [h, nonempty]
  · simp [h]
    omega

theorem length_le_joinLabel (output label : Bytes) : output.length ≤ (joinLabel output label).length := by
  unfold joinLabel
  split
  · simp [*]
  · simp only [List.length_append, List.length_singleton, List.length_map]
    omega

theorem length_le_foldl_joinLabel (labels : List Bytes) (output : Bytes) :
    output.length ≤ (labels.foldl joinLabel output).length := by
  induction labels generalizing output with
  | nil => exact Nat.le_refl _
  | cons label labels ih => exact (length_le_joinLabel output label).trans (ih _)

theorem length_foldl_joinLabel (labels : List Bytes) (output : Bytes)
    (hne : ∀ label ∈ labels, label ≠ []) : (labels.foldl joinLabel output).length ≤
      used output + (labels.map (·.length + 1)).sum - 1 := by
  induction labels generalizing output with
  | nil =>
    unfold used
    split <;> simp [*]
  | cons label labels ih =>
    have hlabel := hne label (List.mem_cons_self ..)
    have hrest := ih (joinLabel output label) fun l hl => hne l (List.mem_cons_of_mem _ hl)
    rw [used_joinLabel hlabel] at hrest
    rw [List.map_cons, List.sum_cons, List.foldl_cons]
    omega

/-- What the rest of a path makes the loop return. -/
def Accepted (visited targets : List Nat) (output : Bytes) (labels : List Bytes) : Prop :=
  (∀ label ∈ labels, label.all validLabelCharacter = true) ∧
    visited.length + targets.length ≤ kMaximumPointerJumps ∧ (visited ++ targets).Nodup ∧
    (output ≠ [] ∨ labels ≠ []) ∧ (labels.foldl joinLabel output).length ≤ 253

instance (visited targets : List Nat) (output : Bytes) (labels : List Bytes) :
    Decidable (Accepted visited targets output labels) := by
  unfold Accepted
  infer_instance

/-- Along any path the loop reads the rest of the name, when it is accepted. -/
theorem nameLoop_path (h : PathAt packet cursor labels targets next) (fuel consumed : Nat)
    (jumped : Bool) (visited : List Nat) (output : Bytes)
    (hfuel : visited.length + targets.length ≤ kMaximumPointerJumps →
      labels.length + targets.length + 1 ≤ fuel)
    (hvisited : visited.Nodup) (hroom : visited.length ≤ kMaximumPointerJumps) :
    nameLoop packet fuel cursor consumed jumped visited output =
      if Accepted visited targets output labels then
        some ⟨labels.foldl joinLabel output, if jumped then consumed else consumed + (next - cursor)⟩
      else none := by
  induction h generalizing fuel consumed jumped visited output with
  | @root cursor here =>
    obtain ⟨fuel, rfl⟩ := Nat.exists_eq_add_of_le' (Nat.le_trans (Nat.le_add_left 1 _) (hfuel hroom))
    have hpast : cursor + 1 - cursor = 1 := by omega
    rw [nameLoop_root fuel consumed jumped visited output here, hpast]
    simp [Accepted, hvisited, hroom]
  | @label label cursor labels targets next nonempty short here rest ih =>
    cases fuel with
    | zero =>
      rw [nameLoop, if_neg fun hgo => absurd (hfuel hgo.2.1) (by omega)]
    | succ fuel =>
    have hpast := rest.lt_next
    have hne : joinLabel output label ≠ [] := by simp [joinLabel, nonempty]
    have hfold := length_le_foldl_joinLabel labels (joinLabel output label)
    have hgo : Accepted visited targets output (label :: labels) ↔
        (label.all validLabelCharacter = true ∧ (joinLabel output label).length ≤ 253) ∧
          Accepted visited targets (joinLabel output label) labels := by
      unfold Accepted
      simp only [List.forall_mem_cons, List.foldl_cons, hne, ne_eq, not_false_eq_true, true_or,
        List.cons_ne_nil, or_true, true_and]
      constructor
      · rintro ⟨⟨hlabel, hlabels⟩, hcount, hnodup, hshort⟩
        exact ⟨⟨hlabel, by omega⟩, hlabels, hcount, hnodup, hshort⟩
      · rintro ⟨⟨hlabel, -⟩, hlabels, hcount, hnodup, hshort⟩
        exact ⟨⟨hlabel, hlabels⟩, hcount, hnodup, hshort⟩
    simp only [List.length_cons] at hfuel
    rw [nameLoop_label fuel consumed jumped visited output nonempty short here,
      ih fuel _ jumped visited _ (fun hp => by have := hfuel hp; omega) hvisited hroom]
    simp only [hgo, List.foldl_cons]
    have hnext : consumed + 1 + label.length + (next - (cursor + 1 + label.length)) =
        consumed + (next - cursor) := by omega
    by_cases hlabel : label.all validLabelCharacter = true ∧ (joinLabel output label).length ≤ 253
    · simp only [hlabel, and_self, if_true, true_and]
      cases jumped <;> simp [hnext]
    · simp only [hlabel, if_false, false_and]
  | @pointer target cursor labels targets behind inside small here rest ih =>
    cases fuel with
    | zero =>
      rw [nameLoop, if_neg fun hgo => absurd (hfuel hgo.2.1) (by omega)]
    | succ fuel =>
    have hpast : cursor + 2 - cursor = 2 := by omega
    simp only [List.length_cons] at hfuel
    rw [nameLoop_pointer fuel consumed jumped visited output inside small here]
    have hshift : visited ++ target :: targets = visited ++ [target] ++ targets := by simp
    by_cases hjump : visited.length < kMaximumPointerJumps ∧ target ∉ visited
    · have hgo : Accepted visited (target :: targets) output labels ↔
          Accepted (visited ++ [target]) targets output labels := by
        unfold Accepted
        rw [hshift]
        simp only [List.length_append, List.length_cons, List.length_nil]
        rw [show visited.length + (targets.length + 1) = visited.length + (0 + 1) + targets.length by
          omega]
      have hnodup : (visited ++ [target]).Nodup := by
        rw [List.nodup_append]
        refine ⟨hvisited, List.nodup_singleton _, fun a ha b hb hab => ?_⟩
        rw [List.mem_singleton.mp hb] at hab
        exact hjump.2 (hab ▸ ha)
      rw [if_pos hjump, ih fuel _ true (visited ++ [target]) output
        (fun hp => by
          simp only [List.length_append, List.length_singleton] at hp
          have := hfuel (by omega)
          omega)
        hnodup (by simpa using hjump.1)]
      simp only [hgo, hpast, if_true]
    · rw [if_neg hjump, if_neg]
      rintro ⟨-, hcount, hnodup, -⟩
      simp only [List.length_cons] at hcount
      refine hjump ⟨by omega, fun hmem => ?_⟩
      rw [hshift] at hnodup
      have hfirst := hnodup.of_append_left
      rw [List.nodup_append] at hfirst
      exact hfirst.2.2 target hmem target (List.mem_singleton_self _) rfl

/-- What `DecodeName` makes of a path. -/
theorem decodeName_path (h : PathAt packet offset labels targets next) :
    decodeName packet offset =
      if Accepted [] targets [] labels then some ⟨labels.foldl joinLabel [], next - offset⟩
      else none := by
  have hin := h.inside
  have hturns := h.turns
  have hfuel : ([] : List Nat).length + targets.length ≤ kMaximumPointerJumps →
      labels.length + targets.length + 1 ≤ nameFuel packet := by
    intro hcount
    rw [List.length_nil, Nat.zero_add] at hcount
    have := Nat.mul_le_mul_right (packet.length + 1) hcount
    rw [nameFuel, Nat.add_mul, Nat.one_mul]
    omega
  rw [decodeName, if_neg (by omega), nameLoop_path h _ 0 false [] [] hfuel List.nodup_nil
    (Nat.zero_le _)]
  simp only [Bool.false_eq_true, if_false, Nat.zero_add]

/-- The names the decoder takes. -/
def Admitted (name : Name) : Prop :=
  name.labels ≠ [] ∧ (∀ label ∈ name.labels, label.all validLabelCharacter = true) ∧
    name.pointers ≤ kMaximumPointerJumps

instance (name : Name) : Decidable (Admitted name) := by unfold Admitted; infer_instance

/-- The text the decoder makes of a name. -/
def nameText (labels : List Bytes) : Bytes := labels.foldl joinLabel []

/-- Of the names that may stand in a packet the decoder reads just the admitted ones. -/
theorem decodeName_name {name : Name} (h : NameAt packet offset name.labels name.pointers next)
    (hlen : wireLength name.labels ≤ 255) :
    decodeName packet offset =
      if Admitted name then some ⟨nameText name.labels, next - offset⟩ else none := by
  obtain ⟨targets, hpath, hcount, hnodup, -⟩ := h.path
  have hlong : (name.labels.foldl joinLabel []).length ≤ 0 + (wireLength name.labels - 1) - 1 :=
    length_foldl_joinLabel name.labels [] fun label hmem => (hpath.label_length hmem).1
  have hgo : Accepted [] targets [] name.labels ↔ Admitted name := by
    rw [Accepted, Admitted, List.length_nil, Nat.zero_add, hcount]
    simp only [List.nil_append, hnodup, true_and, ne_eq, not_true_eq_false, false_or]
    constructor
    · rintro ⟨hvalid, hjumps, hsome, -⟩
      exact ⟨hsome, hvalid, hjumps⟩
    · rintro ⟨hsome, hvalid, hjumps⟩
      exact ⟨hvalid, hjumps, hsome, by omega⟩
  rw [decodeName_path hpath]
  simp only [hgo, nameText]

end HarmonyScreen.Proofs.MdnsNames
