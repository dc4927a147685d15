import Mathlib.Data.Nat.Digits.Defs
import Mathlib.Data.Nat.Digits.Lemmas

namespace HarmonyScreen.Lib.Dns

/-- The number that some bytes write, the most significant one first. -/
def number (digits : List UInt8) : Nat := Nat.ofDigits 256 (digits.reverse.map UInt8.toNat)

theorem number_cons (digit : UInt8) (digits : List UInt8) :
    number (digit :: digits) = digit.toNat * 256 ^ digits.length + number digits := by
  simp [number, Nat.ofDigits_append, Nat.mul_comm, Nat.add_comm]

/-- These bytes stand in the packet, from the offset on. -/
def FieldAt (packet : List UInt8) (offset : Nat) (bytes : List UInt8) : Prop :=
  ∃ before after, packet = before ++ bytes ++ after ∧ before.length = offset

section Field
variable {packet bytes more : List UInt8} {offset : Nat}

theorem FieldAt.drop (h : FieldAt packet offset bytes) :
    (packet.drop offset).take bytes.length = bytes := by
  obtain ⟨before, after, rfl, rfl⟩ := h
  simp

theorem FieldAt.inside (h : FieldAt packet offset bytes) :
    offset + bytes.length ≤ packet.length := by
  obtain ⟨before, after, rfl, rfl⟩ := h
  simp only [List.length_append]
  omega

theorem FieldAt.unique (h : FieldAt packet offset bytes) (h' : FieldAt packet offset more)
    (hlen : bytes.length = more.length) : bytes = more := by
  rw [← h.drop, ← h'.drop, hlen]

theorem FieldAt.left (h : FieldAt packet offset (bytes ++ more)) : FieldAt packet offset bytes := by
  obtain ⟨before, after, rfl, rfl⟩ := h
  exact ⟨before, more ++ after, by simp, rfl⟩

theorem FieldAt.right (h : FieldAt packet offset (bytes ++ more)) :
    FieldAt packet (offset + bytes.length) more := by
  obtain ⟨before, after, rfl, rfl⟩ := h
  exact ⟨before ++ bytes, after, by simp, by simp⟩

theorem FieldAt.getElem? {b : UInt8} (h : FieldAt packet offset (b :: bytes)) :
    packet[offset]? = some b := by
  obtain ⟨before, after, rfl, rfl⟩ := h
  simp

theorem fieldAt_iff : FieldAt packet offset bytes ↔
    offset + bytes.length ≤ packet.length ∧ (packet.drop offset).take bytes.length = bytes := by
  refine ⟨fun h => ⟨h.inside, h.drop⟩, fun ⟨hin, hdrop⟩ => ?_⟩
  refine ⟨packet.take offset, packet.drop (offset + bytes.length), ?_, by simp; omega⟩
  have hsplit := List.take_append_drop bytes.length (packet.drop offset)
  rw [hdrop, List.drop_drop] at hsplit
  rw [List.append_assoc, hsplit, List.take_append_drop]

instance : Decidable (FieldAt packet offset bytes) := decidable_of_iff' _ fieldAt_iff

theorem FieldAt.append (h : FieldAt packet offset bytes) (rest : List UInt8) :
    FieldAt (packet ++ rest) offset bytes := by
  obtain ⟨before, after, rfl, rfl⟩ := h
  exact ⟨before, after ++ rest, by simp, rfl⟩

theorem fieldAt_end (packet bytes : List UInt8) : FieldAt (packet ++ bytes) packet.length bytes :=
  ⟨packet, [], by simp, rfl⟩

theorem FieldAt.head {b : UInt8} (h : FieldAt packet offset (b :: bytes)) :
    FieldAt packet offset [b] := by
  have hsplit : FieldAt packet offset ([b] ++ bytes) := h
  exact hsplit.left

theorem FieldAt.tail {b : UInt8} (h : FieldAt packet offset (b :: bytes)) :
    FieldAt packet (offset + 1) bytes := by
  have hsplit : FieldAt packet offset ([b] ++ bytes) := h
  exact hsplit.right

theorem FieldAt.cons {b : UInt8} (h : packet[offset]? = some b)
    (rest : FieldAt packet (offset + 1) bytes) : FieldAt packet offset (b :: bytes) := by
  obtain ⟨before, after, rfl, hbefore⟩ := rest
  have hlast : before.getLast? = some b := by
    rw [List.getLast?_eq_getElem?, hbefore, Nat.add_sub_cancel, ← h, List.append_assoc,
      List.getElem?_append_left (by omega)]
  obtain ⟨front, rfl⟩ := List.getLast?_eq_some_iff.mp hlast
  refine ⟨front, after, by simp, ?_⟩
  simpa using hbefore

theorem fieldAt_nil (h : offset ≤ packet.length) : FieldAt packet offset [] :=
  fieldAt_iff.mpr ⟨by simpa using h, by simp⟩

end Field

/-- A number of this many bytes stands in the packet. -/
def NumberAt (packet : List UInt8) (offset width value : Nat) : Prop :=
  ∃ digits, digits.length = width ∧ number digits = value ∧ FieldAt packet offset digits

section Number
variable {packet : List UInt8} {offset width value : Nat}

theorem NumberAt.inside (h : NumberAt packet offset width value) :
    offset + width ≤ packet.length := by
  obtain ⟨digits, rfl, -, hfield⟩ := h
  exact hfield.inside

theorem numberAt_iff : NumberAt packet offset width value ↔
    offset + width ≤ packet.length ∧ number ((packet.drop offset).take width) = value := by
  constructor
  · rintro ⟨digits, rfl, rfl, hfield⟩
    exact ⟨hfield.inside, by rw [hfield.drop]⟩
  · rintro ⟨hin, rfl⟩
    have hlen : ((packet.drop offset).take width).length = width := by
      rw [List.length_take, List.length_drop]
      omega
    exact ⟨_, hlen, rfl, fieldAt_iff.mpr ⟨by omega, by rw [hlen]⟩⟩

instance : Decidable (NumberAt packet offset width value) := decidable_of_iff' _ numberAt_iff

theorem NumberAt.append (h : NumberAt packet offset width value) (rest : List UInt8) :
    NumberAt (packet ++ rest) offset width value := by
  obtain ⟨digits, hlen, hvalue, hfield⟩ := h
  exact ⟨digits, hlen, hvalue, hfield.append rest⟩

end Number

/-- A name stands in the packet at the offset (RFC 1035, 4.1.4), compressed by so
many pointers, each to something earlier; behind it the packet goes on at `next`. -/
inductive NameAt (packet : List UInt8) : (offset : Nat) → (labels : List (List UInt8)) →
    (pointers next : Nat) → Prop where
  | root (here : FieldAt packet offset [0]) : NameAt packet offset [] 0 (offset + 1)
  | label (nonempty : label ≠ []) (short : label.length ≤ 63)
      (here : FieldAt packet offset (label.length.toUInt8 :: label))
      (rest : NameAt packet (offset + 1 + label.length) labels pointers next) :
      NameAt packet offset (label :: labels) pointers next
  | pointer (back : target < offset) (small : target < 2 ^ 14)
      (here : FieldAt packet offset [(0xc0 + target / 256).toUInt8, (target % 256).toUInt8])
      (rest : NameAt packet target labels pointers behind) :
      NameAt packet offset labels (pointers + 1) (offset + 2)

/-- From the offset on, labels and pointers lead to a root; the pointers may lead
anywhere in the packet. Behind the root, or else the first pointer, the packet goes on at `next`. -/
inductive PathAt (packet : List UInt8) : (offset : Nat) → (labels : List (List UInt8)) →
    (targets : List Nat) → (next : Nat) → Prop where
  | root (here : FieldAt packet offset [0]) : PathAt packet offset [] [] (offset + 1)
  | label (nonempty : label ≠ []) (short : label.length ≤ 63)
      (here : FieldAt packet offset (label.length.toUInt8 :: label))
      (rest : PathAt packet (offset + 1 + label.length) labels targets next) :
      PathAt packet offset (label :: labels) targets next
  | pointer (inside : target < packet.length) (small : target < 2 ^ 14)
      (here : FieldAt packet offset [(0xc0 + target / 256).toUInt8, (target % 256).toUInt8])
      (rest : PathAt packet target labels targets behind) :
      PathAt packet offset labels (target :: targets) (offset + 2)

/-- How long the name is without compression, its root included. -/
def wireLength (labels : List (List UInt8)) : Nat := (labels.map (·.length + 1)).sum + 1

section Name
variable {packet : List UInt8} {offset pointers next : Nat} {labels : List (List UInt8)}

theorem toNat_length {label : List UInt8} (short : label.length ≤ 63) :
    label.length.toUInt8.toNat = label.length := by
  simp only [Nat.toUInt8, UInt8.toNat_ofNat']
  omega

theorem toNat_pointer_high {target : Nat} (small : target < 2 ^ 14) :
    (0xc0 + target / 256).toUInt8.toNat = 0xc0 + target / 256 := by
  simp only [Nat.toUInt8, UInt8.toNat_ofNat']
  omega

theorem toNat_pointer_low (target : Nat) : (target % 256).toUInt8.toNat = target % 256 := by
  simp [Nat.toUInt8]

theorem NameAt.inside (h : NameAt packet offset labels pointers next) : offset < packet.length := by
  cases h with
  | root here => simpa using here.inside
  | label nonempty short here rest =>
    have := here.inside
    simp only [List.length_cons] at this
    omega
  | pointer back small here rest =>
    have := here.inside
    simp only [List.length_cons] at this
    omega

theorem NameAt.next_le (h : NameAt packet offset labels pointers next) : next ≤ packet.length := by
  induction h with
  | root here => exact here.inside
  | label nonempty short here rest ih => exact ih
  | pointer back small here rest ih => exact here.inside

theorem NameAt.lt_next (h : NameAt packet offset labels pointers next) : offset < next := by
  induction h with
  | root here => omega
  | label nonempty short here rest ih => omega
  | pointer back small here rest ih => omega

/-- A name stays where it is when the packet is continued. -/
theorem NameAt.append (h : NameAt packet offset labels pointers next) (rest : List UInt8) :
    NameAt (packet ++ rest) offset labels pointers next := by
  induction h with
  | root here => exact .root (here.append rest)
  | label nonempty short here tail ih => exact .label nonempty short (here.append rest) ih
  | pointer back small here tail ih => exact .pointer back small (here.append rest) ih

/-- What stands at an offset is at most one name. -/
theorem NameAt.unique {labels' : List (List UInt8)} {pointers' next' : Nat}
    (h : NameAt packet offset labels pointers next)
    (h' : NameAt packet offset labels' pointers' next') :
    labels = labels' ∧ pointers = pointers' ∧ next = next' := by
  induction h generalizing labels' pointers' next' with
  | root here =>
    cases h' with
    | root => exact ⟨rfl, rfl, rfl⟩
    | label nonempty short here' rest =>
      have hbyte := congrArg UInt8.toNat (List.cons.inj (here.unique here'.head rfl)).1
      rw [toNat_length short] at hbyte
      exact absurd (List.length_eq_zero_iff.mp hbyte.symm) nonempty
    | pointer back small here' rest =>
      have hbyte := congrArg UInt8.toNat (List.cons.inj (here.unique here'.head rfl)).1
      rw [toNat_pointer_high small] at hbyte
      simp only [UInt8.toNat_zero] at hbyte
      omega
  | @label label offset labels pointers next nonempty short here rest ih =>
    cases h' with
    | root here' =>
      have hbyte := congrArg UInt8.toNat (List.cons.inj (here'.unique here.head rfl)).1
      rw [toNat_length short] at hbyte
      exact absurd (List.length_eq_zero_iff.mp hbyte.symm) nonempty
    | @label label' _ _ _ _ nonempty' short' here' rest' =>
      have hbyte := congrArg UInt8.toNat (List.cons.inj (here.head.unique here'.head rfl)).1
      rw [toNat_length short, toNat_length short'] at hbyte
      have hlabel : label = label' := here.tail.unique here'.tail hbyte
      subst hlabel
      obtain ⟨rfl, rfl, rfl⟩ := ih rest'
      exact ⟨rfl, rfl, rfl⟩
    | pointer back small here' rest' =>
      have hbyte := congrArg UInt8.toNat (List.cons.inj (here.head.unique here'.head rfl)).1
      rw [toNat_length short, toNat_pointer_high small] at hbyte
      omega
  | @pointer target offset labels pointers behind back small here rest ih =>
    cases h' with
    | root here' =>
      have hbyte := congrArg UInt8.toNat (List.cons.inj (here'.unique here.head rfl)).1
      rw [toNat_pointer_high small] at hbyte
      simp only [UInt8.toNat_zero] at hbyte
      omega
    | label nonempty' short' here' rest' =>
      have hbyte := congrArg UInt8.toNat (List.cons.inj (here'.head.unique here.head rfl)).1
      rw [toNat_length short', toNat_pointer_high small] at hbyte
      omega
    | @pointer target' _ _ _ _ back' small' here' rest' =>
      obtain ⟨hhigh, htail⟩ := List.cons.inj (here.unique here' rfl)
      have hhigh := congrArg UInt8.toNat hhigh
      have hlow := congrArg UInt8.toNat (List.cons.inj htail).1
      rw [toNat_pointer_high small, toNat_pointer_high small'] at hhigh
      rw [toNat_pointer_low, toNat_pointer_low] at hlow
      have htarget : target = target' := by omega
      subst htarget
      obtain ⟨rfl, rfl, -⟩ := ih rest'
      exact ⟨rfl, rfl, rfl⟩

section Path
variable {targets : List Nat}

theorem PathAt.inside (h : PathAt packet offset labels targets next) : offset < packet.length := by
  cases h with
  | root here => simpa using here.inside
  | label nonempty short here rest =>
    have := here.inside
    simp only [List.length_cons] at this
    omega
  | pointer inside small here rest =>
    have := here.inside
    simp only [List.length_cons] at this
    omega

theorem PathAt.next_le (h : PathAt packet offset labels targets next) : next ≤ packet.length := by
  induction h with
  | root here => exact here.inside
  | label nonempty short here rest ih => exact ih
  | pointer inside small here rest ih => exact here.inside

theorem PathAt.lt_next (h : PathAt packet offset labels targets next) : offset < next := by
  induction h with
  | root here => omega
  | label nonempty short here rest ih => omega
  | pointer inside small here rest ih => omega

/-- Each stretch between two pointers fits the packet. -/
theorem PathAt.turns (h : PathAt packet offset labels targets next) : labels.length + targets.length
    + 1 ≤ targets.length * (packet.length + 1) + (packet.length - offset) := by
  induction h with
  | root here =>
    have := here.inside
    simp only [List.length_nil, List.length_cons] at this ⊢
    omega
  | label nonempty short here rest ih =>
    have := rest.inside
    simp only [List.length_cons]
    omega
  | pointer inside small here rest ih =>
    have := here.inside
    simp only [List.length_cons] at this ⊢
    rw [Nat.add_mul, Nat.one_mul]
    omega

/-- Each label of the path stands in the packet. -/
theorem PathAt.label_mem (h : PathAt packet offset labels targets next) {label : List UInt8}
    (hmem : label ∈ labels) : ∃ at_, FieldAt packet at_ (label.length.toUInt8 :: label) := by
  induction h with
  | root here => cases hmem
  | label nonempty short here rest ih =>
    rcases List.mem_cons.mp hmem with rfl | hmem
    · exact ⟨_, here⟩
    · exact ih hmem
  | pointer inside small here rest ih => exact ih hmem

/-- The labels of a path are short, and none is empty. -/
theorem PathAt.label_length (h : PathAt packet offset labels targets next) {label : List UInt8}
    (hmem : label ∈ labels) : label ≠ [] ∧ label.length ≤ 63 := by
  induction h with
  | root here => cases hmem
  | label nonempty short here rest ih =>
    rcases List.mem_cons.mp hmem with rfl | hmem
    · exact ⟨nonempty, short⟩
    · exact ih hmem
  | pointer inside small here rest ih => exact ih hmem

/-- A name is a path, and the further one follows its pointers the shorter what is left. -/
theorem NameAt.path (h : NameAt packet offset labels pointers next) : ∃ targets,
    PathAt packet offset labels targets next ∧ targets.length = pointers ∧ targets.Nodup ∧
      ∀ t ∈ targets, ∃ labels' pointers' next', NameAt packet t labels' pointers' next' ∧
        labels'.length + pointers' < labels.length + pointers := by
  induction h with
  | root here => exact ⟨[], .root here, rfl, List.nodup_nil, by simp⟩
  | label nonempty short here rest ih =>
    obtain ⟨targets, hpath, hlen, hnodup, hshorter⟩ := ih
    refine ⟨targets, .label nonempty short here hpath, hlen, hnodup, fun t ht => ?_⟩
    obtain ⟨labels', pointers', next', hname, hlt⟩ := hshorter t ht
    exact ⟨labels', pointers', next', hname, by simp only [List.length_cons]; omega⟩
  | @pointer target offset labels pointers behind back small here rest ih =>
    obtain ⟨targets, hpath, hlen, hnodup, hshorter⟩ := ih
    have hinside := rest.inside
    refine ⟨target :: targets, .pointer hinside small here hpath, by simp [hlen],
      List.nodup_cons.mpr ⟨fun hmem => ?_, hnodup⟩, fun t ht => ?_⟩
    · obtain ⟨labels', pointers', next', hname, hlt⟩ := hshorter target hmem
      obtain ⟨rfl, rfl, -⟩ := rest.unique hname
      omega
    · rcases List.mem_cons.mp ht with rfl | ht
      · exact ⟨labels, pointers, behind, rest, by omega⟩
      · obtain ⟨labels', pointers', next', hname, hlt⟩ := hshorter t ht
        exact ⟨labels', pointers', next', hname, by omega⟩

end Path

/-- The encoding of a name without pointers. -/
def encodeName (labels : List (List UInt8)) : List UInt8 :=
  labels.flatMap (fun label => label.length.toUInt8 :: label) ++ [0]

/-- What is encoded stands there as that name. -/
theorem nameAt_encode (labels : List (List UInt8)) (h : ∀ label ∈ labels, label ≠ [] ∧ label.length ≤ 63)
    (here : FieldAt packet offset (encodeName labels)) :
    NameAt packet offset labels 0 (offset + (encodeName labels).length) := by
  induction labels generalizing offset with
  | nil => exact .root here
  | cons label labels ih =>
    obtain ⟨hsome, hshort⟩ := h label (List.mem_cons_self ..)
    have hhere : FieldAt packet offset ((label.length.toUInt8 :: label) ++ encodeName labels) := by
      simpa [encodeName] using here
    have hrest := ih (fun other hmem => h other (List.mem_cons_of_mem _ hmem)) hhere.right
    have hstart : offset + (label.length.toUInt8 :: label).length = offset + 1 + label.length := by
      simp only [List.length_cons]
      omega
    have hend : offset + (encodeName (label :: labels)).length =
        offset + 1 + label.length + (encodeName labels).length := by
      simp only [encodeName, List.flatMap_cons, List.length_append, List.length_cons]
      omega
    rw [hstart] at hrest
    rw [hend]
    exact .label hsome hshort hhere.left hrest

end Name

/-- A name as a packet has it. -/
structure Name where
  labels : List (List UInt8)
  pointers : Nat

/-- A letter in lower case; every other byte as it is. -/
def lowercase (value : UInt8) : UInt8 :=
  if 0x41 ≤ value ∧ value ≤ 0x5a then value + 0x20 else value

/-- The text of a name in lower case. -/
def dotted (labels : List (List UInt8)) : List UInt8 :=
  [0x2e].intercalate (labels.map (·.map lowercase))

/-- What the labels of a host name consist of. -/
def IsLetterDigitHyphen (value : UInt8) : Prop :=
  (0x30 ≤ value ∧ value ≤ 0x39) ∨ (0x41 ≤ value ∧ value ≤ 0x5a) ∨ (0x61 ≤ value ∧ value ≤ 0x7a) ∨
    value = 0x2d

/-- Two names are the same, whatever the case of their letters. -/
def Name.Is (name : Name) (labels : List (List UInt8)) : Prop :=
  name.labels.map (·.map lowercase) = labels.map (·.map lowercase)

structure Question where
  name : Name
  type : Nat
  questionClass : Nat

structure Record where
  name : Name
  type : Nat
  recordClass : Nat
  ttl : Nat
  data : List UInt8

structure Message where
  identifier : Nat
  flags : Nat
  questions : List Question
  answers : List Record
  authorities : List Record
  additionals : List Record

namespace Message

def isResponse (m : Message) : Bool := m.flags.testBit 15

def opcode (m : Message) : Nat := m.flags / 2 ^ 11 % 2 ^ 4

def truncated (m : Message) : Bool := m.flags.testBit 9

def records (m : Message) : List Record := m.answers ++ m.authorities ++ m.additionals

/-- Every name outside the data of the records. -/
def names (m : Message) : List Name := m.questions.map (·.name) ++ m.records.map (·.name)

end Message

def QuestionAt (packet : List UInt8) (offset : Nat) (q : Question) (next : Nat) : Prop :=
  ∃ behind, NameAt packet offset q.name.labels q.name.pointers behind ∧
    wireLength q.name.labels ≤ 255 ∧ NumberAt packet behind 2 q.type ∧
    NumberAt packet (behind + 2) 2 q.questionClass ∧ next = behind + 4

def RecordAt (packet : List UInt8) (offset : Nat) (r : Record) (next : Nat) : Prop :=
  ∃ behind, NameAt packet offset r.name.labels r.name.pointers behind ∧
    wireLength r.name.labels ≤ 255 ∧ NumberAt packet behind 2 r.type ∧
    NumberAt packet (behind + 2) 2 r.recordClass ∧ NumberAt packet (behind + 4) 4 r.ttl ∧
    NumberAt packet (behind + 8) 2 r.data.length ∧ FieldAt packet (behind + 10) r.data ∧
    next = behind + 10 + r.data.length

/-- One thing after the other. -/
inductive SeriesAt (at_ : Nat → α → Nat → Prop) : (offset : Nat) → List α → (next : Nat) → Prop where
  | nil : SeriesAt at_ offset [] offset
  | cons (first : at_ offset a next) (rest : SeriesAt at_ next as behind) :
      SeriesAt at_ offset (a :: as) behind

/-- The packet is this message, to its last byte. -/
structure MessageAt (packet : List UInt8) (m : Message) : Prop where
  identifier : NumberAt packet 0 2 m.identifier
  flags : NumberAt packet 2 2 m.flags
  questionCount : NumberAt packet 4 2 m.questions.length
  answerCount : NumberAt packet 6 2 m.answers.length
  authorityCount : NumberAt packet 8 2 m.authorities.length
  additionalCount : NumberAt packet 10 2 m.additionals.length
  body : ∃ middle, SeriesAt (QuestionAt packet) 12 m.questions middle ∧
    SeriesAt (RecordAt packet) middle m.records packet.length

end HarmonyScreen.Lib.Dns
