import HarmonyScreen.Extension.JsonText
import HarmonyScreen.Proofs.JsonFields
import HarmonyScreen.Proofs.ProofMessages

namespace HarmonyScreen.Proofs.FlatObjects
open Receiver Receiver.Protocol Lib.Json JsonFields
open Extension (Number Value)

/-- A value that is a text or a natural number. -/
inductive Scalar where
  | text (value : Bytes)
  | count (value : Nat)
  deriving DecidableEq

namespace Scalar

def value : Scalar → Extension.Value
  | text value => .string value
  | count value => .ofNumber (.integer value)

/-- The same in the dialect that the Receiver reads. -/
def literal : Scalar → Lib.Json.Value
  | text value => .string value
  | count value => .integer value

end Scalar

abbrev Members := List (Bytes × Scalar)

def objectOf (members : Members) : Extension.Value :=
  .object (members.map fun m => (m.1, m.2.value))

/-- A character of ASCII that no text escapes. -/
def Plain (b : UInt8) : Prop := (0x20 ≤ b ∧ b ≠ quote ∧ b ≠ backslash) ∧ b < 0x80

instance : DecidablePred Plain := fun _ => inferInstanceAs (Decidable (_ ∧ _))

instance (text : Bytes) : Decidable (∀ b ∈ text, Plain b) := List.decidableBAll Plain text

/-- A letter of a name. -/
def Letter (b : UInt8) : Prop := 0x41 ≤ b ∧ b ≤ 0x5a ∨ 0x61 ≤ b ∧ b ≤ 0x7a

instance : DecidablePred Letter := fun _ => inferInstanceAs (Decidable (_ ∨ _))

/-- Flat members whose names are told apart from each other and from the texts. -/
structure Flat (members : Members) : Prop where
  names : ∀ m ∈ members, ∀ b ∈ m.1, Letter b
  distinct : (members.map Prod.fst).Nodup
  plain : ∀ name value, (name, .text value) ∈ members → ∀ b ∈ value, Plain b
  apart : ∀ name value, (name, .text value) ∈ members → ∀ m ∈ members, m.1 ≠ value
  small : ∀ name value, (name, .count value) ∈ members → value < 2 ^ 53

/-- The kinds of characters, over all bytes. -/
theorem characters : ∀ i : Fin 256,
    (Letter (UInt8.ofFin i) → Plain (UInt8.ofFin i) ∧
      UInt8.ofFin i ≠ colon ∧ UInt8.ofFin i ≠ comma ∧ UInt8.ofFin i ≠ 0x7b) ∧
    (Plain (UInt8.ofFin i) → Value.escapeCharacter (UInt8.ofFin i) = [UInt8.ofFin i]) ∧
    (isHex (UInt8.ofFin i) = true ∨ UInt8.ofFin i = 0x2d → Plain (UInt8.ofFin i)) := by
  decide +kernel

theorem Letter.plain {b : UInt8} (h : Letter b) : Plain b := ((characters b.toFin).1 h).1

theorem Letter.clean {b : UInt8} (h : Letter b) : b ≠ colon ∧ b ≠ comma ∧ b ≠ 0x7b :=
  ((characters b.toFin).1 h).2

section Numbers

theorem decimal_digits (n : Nat) : ∀ b ∈ decimal n, IsDigit b := by
  intro b hb
  obtain ⟨c, hc, rfl⟩ := List.mem_map.mp hb
  have hdigit := ProofMessages.digit_toNat hc
  have hbyte : c.toNat.toUInt8.toNat = c.toNat := Nat.mod_eq_of_lt (by omega)
  constructor
  · rw [UInt8.le_iff_toNat_le, hbyte]
    exact hdigit.1
  · rw [UInt8.le_iff_toNat_le, hbyte]
    exact hdigit.2

theorem magnitude_decimal (n : Nat) : magnitude (decimal n) = n := by
  have hfold : ∀ (cs : List Char) (acc : Nat), (∀ c ∈ cs, 48 ≤ c.toNat ∧ c.toNat ≤ 57) →
      (cs.map fun c => c.toNat.toUInt8).foldl (fun value b => value * 10 + (b.toNat - 0x30)) acc =
        Nat.ofDigitChars 10 cs acc := by
    intro cs
    induction cs with
    | nil => simp [Nat.ofDigitChars]
    | cons c cs ih =>
      intro acc hcs
      have hc := hcs c (by simp)
      have hbyte : c.toNat.toUInt8.toNat = c.toNat := Nat.mod_eq_of_lt (by omega)
      rw [List.map_cons, List.foldl_cons, Nat.ofDigitChars_cons, hbyte, Nat.mul_comm acc 10]
      exact ih _ fun d hd => hcs d (by simp [hd])
  rw [magnitude, decimal, hfold _ 0 fun c hc => ProofMessages.digit_toNat hc,
    Nat.ofDigitChars_ten_toDigits]

theorem decimal_ne_nil (n : Nat) : decimal n ≠ [] := by
  simp [decimal]

theorem decimal_append {m k : Nat} (hm : 0 < m) (hk : k < 10) :
    decimal (10 * m + k) = decimal m ++ decimal k := by
  rw [decimal, ← Nat.toDigits_append_toDigits (by decide) hm hk, List.map_append]
  rfl

theorem digits_decimal (n : Nat) : Digits (decimal n) := by
  refine ⟨decimal_ne_nil n, decimal_digits n, ?_⟩
  induction n using Nat.base_induction 10 (by decide) with
  | single m hm =>
    intro hhead
    have hlength : (decimal m).length ≤ 1 := by
      rw [decimal, List.length_map]
      exact (Nat.length_toDigits_le_iff (by decide) (by decide)).mpr (by omega)
    obtain ⟨b, hone⟩ := List.length_eq_one_iff.mp
      (Nat.le_antisymm hlength (List.length_pos_iff.mpr (decimal_ne_nil m)))
    rw [hone, List.head?_singleton] at hhead
    rw [hone, Option.some.inj hhead]
  | digit m k hk hm ih =>
    intro hhead
    rw [decimal_append hm hk] at hhead
    have hzero : decimal m = decimal 0 := by
      apply ih
      rwa [List.head?_append_of_ne_nil _ (decimal_ne_nil m)] at hhead
    have := ProofMessages.decimal_inj hzero
    omega

theorem integerText_decimal {n : Nat} (h : n < 2 ^ 63) : IntegerText n (decimal n) := by
  have htext := IntegerText.positive (digits_decimal n) (by rw [magnitude_decimal]; omega)
  rwa [magnitude_decimal] at htext

theorem decimal_length {n k : Nat} (hk : 0 < k) (h : n < 10 ^ k) : (decimal n).length ≤ k := by
  rw [decimal, List.length_map]
  exact (Nat.length_toDigits_le_iff (by decide) hk).mpr h

theorem string_natural (n : Nat) : (Number.integer n).string = decimal n :=
  ProofMessages.string_integer n

end Numbers

section Texts
variable {members : Members}

theorem escapeCharacter_plain {b : UInt8} (h : Plain b) : Value.escapeCharacter b = [b] :=
  (characters b.toFin).2.1 h

theorem quoteText_plain {value : Bytes} (h : ∀ b ∈ value, Plain b) :
    Value.quoteText value = quoted value := by
  have hsame : value.flatMap Value.escapeCharacter = value := by
    induction value with
    | nil => rfl
    | cons b value ih =>
      rw [List.flatMap_cons, escapeCharacter_plain (h b (by simp)),
        ih fun c hc => h c (by simp [hc])]
      rfl
  rw [Value.quoteText, hsame, quoted]

/-- The label of a name of letters. -/
def label (name : Bytes) : Label :=
  if h : ∀ b ∈ name, Plain b then .tight (.plain name fun b hb => (h b hb).1)
  else .tight (.plain [] fun _ hb => absurd hb List.not_mem_nil)

/-- The text of a scalar that needs no escapes. -/
def literal : Scalar → Literal
  | .text value =>
    if h : ∀ b ∈ value, Plain b then .plain value fun b hb => (h b hb).1
    else .plain [] fun _ hb => absurd hb List.not_mem_nil
  | .count value =>
    if h : value < 2 ^ 63 then ⟨.integer value, decimal value, .integer (integerText_decimal h)⟩
    else .plain [] fun _ hb => absurd hb List.not_mem_nil

theorem literal_text {value : Bytes} (h : ∀ b ∈ value, Plain b) :
    literal (.text value) = .plain value fun b hb => (h b hb).1 := dif_pos h

theorem literal_count {value : Nat} (h : value < 2 ^ 63) : literal (.count value) =
    ⟨.integer value, decimal value, .integer (integerText_decimal h)⟩ := dif_pos h

def entry (m : Bytes × Scalar) : Label × Literal := (label m.1, literal m.2)

/-- The text of a member between the commas. -/
def memberText (m : Bytes × Scalar) : Bytes := quoted m.1 ++ colon :: m.2.value.stringify

theorem label_letters {name : Bytes} (h : ∀ b ∈ name, Letter b) :
    label name = .tight (.plain name fun b hb => (h b hb).plain.1) :=
  dif_pos fun b hb => (h b hb).plain

theorem Flat.entry_eq (h : Flat members) {m : Bytes × Scalar} (hm : m ∈ members) :
    (entry m).1.key = m.1 ∧ (entry m).2.value = m.2.literal ∧
      (entry m).1.member (entry m).2 = memberText m := by
  obtain ⟨name, scalar⟩ := m
  rw [entry, label_letters (h.names _ hm)]
  refine ⟨rfl, ?_⟩
  cases scalar with
  | text value =>
    have hvalue := h.plain name value hm
    rw [literal_text hvalue]
    refine ⟨rfl, ?_⟩
    simp [Label.member, Label.front, Label.tight, Name.plain, Literal.plain, memberText,
      Scalar.value, Value.stringify, quoteText_plain hvalue, quoted, quote]
  | count value =>
    have hsmall : value < 2 ^ 63 := by
      have := h.small name value hm
      omega
    rw [literal_count hsmall]
    refine ⟨rfl, ?_⟩
    simp [Label.member, Label.front, Label.tight, Name.plain, memberText, Scalar.value,
      Extension.Value.ofNumber, Value.stringify, string_natural, quoted, quote]

theorem intercalate_cons (separator text : Bytes) (texts : List Bytes) :
    separator.intercalate (text :: texts) = text ++ texts.flatMap (separator ++ ·) := by
  induction texts generalizing text with
  | nil => simp
  | cons other texts ih =>
    rw [List.intercalate_cons_cons, ih, List.flatMap_cons, List.append_assoc, List.append_assoc]

theorem Flat.members_text (h : Flat members) :
    (objectOf members).stringify = 0x7b :: [comma].intercalate (members.map memberText) ++ [0x7d] := by
  have htexts : Value.memberTexts (members.map fun m => (m.1, m.2.value)) =
      members.map memberText := by
    rw [Value.memberTexts_eq, List.map_map]
    apply List.map_congr_left
    intro m hm
    rw [Function.comp, memberText, quoteText_plain fun b hb => (h.names m hm b hb).plain]
    rfl
  rw [objectOf, Value.stringify, htexts]
  rfl

/-- The text of a flat object, member by member. -/
theorem Flat.stringify (h : Flat members) : (objectOf members).stringify =
    0x7b :: (membersText (members.map entry) ++ [closeBrace]) := by
  have hmembers : membersText (members.map entry) = [comma].intercalate (members.map memberText) := by
    have hsame : ∀ rest ⊆ members, (rest.map entry).flatMap (fun m => comma :: m.1.member m.2) =
        (rest.map memberText).flatMap ([comma] ++ ·) := by
      intro rest hrest
      induction rest with
      | nil => rfl
      | cons m rest ih =>
        obtain ⟨hm, hrest⟩ := List.cons_subset.mp hrest
        rw [List.map_cons, List.flatMap_cons, ih hrest, (h.entry_eq hm).2.2]
        rfl
    cases hcases : members with
    | nil => rfl
    | cons m rest =>
      rw [hcases] at h hsame
      rw [List.map_cons, List.map_cons, intercalate_cons, membersText,
        hsame rest (List.subset_cons_self m rest), (h.entry_eq (List.mem_cons_self ..)).2.2]
  rw [h.members_text, hmembers]
  rfl

theorem memberText_text {name value : Bytes} (h : ∀ b ∈ value, Plain b) :
    memberText (name, .text value) = quoted name ++ colon :: quoted value := by
  rw [memberText, Scalar.value, Value.stringify, quoteText_plain h]

theorem memberText_count (name : Bytes) (value : Nat) :
    memberText (name, .count value) = quoted name ++ colon :: decimal value := by
  rw [memberText, Scalar.value, Extension.Value.ofNumber, Value.stringify, string_natural]

end Texts

section Search
variable {members : Members} {key text more : Bytes}

/-- No quote, no key. -/
theorem afterFirst_unquoted (hclean : (0x22 : UInt8) ∉ text) (more : Bytes) :
    afterFirst (quoted key) (text ++ more) = afterFirst (quoted key) more := by
  induction text with
  | nil => rfl
  | cons b text ih =>
    rw [List.mem_cons, not_or] at hclean
    have hskip : (quoted key).isPrefixOf (b :: (text ++ more)) = false := by
      simp [quoted, List.isPrefixOf, hclean.1]
    rw [List.cons_append, afterFirst, hskip, if_neg Bool.false_ne_true]
    exact ih hclean.2

/-- What stands between two quotes and is not the key is passed over. -/
theorem afterFirst_token (hkey : (0x22 : UInt8) ∉ key) (hclean : (0x22 : UInt8) ∉ text)
    (hne : text ≠ key) (more : Bytes) : afterFirst (quoted key) (0x22 :: (text ++ 0x22 :: more)) =
      afterFirst (quoted key) (0x22 :: more) := by
  have hskip : (quoted key).isPrefixOf (0x22 :: (text ++ 0x22 :: more)) = false := by
    rw [Bool.eq_false_iff]
    intro hprefix
    have hquoted : key ++ [0x22] <+: text ++ 0x22 :: more := by
      have hall := List.isPrefixOf_iff_prefix.mp hprefix
      rw [quoted, List.cons_append, List.cons_prefix_cons] at hall
      exact hall.2
    obtain ⟨rest, hrest⟩ := hquoted
    rw [List.append_assoc, List.singleton_append] at hrest
    have hsplit := (List.append_eq_append_iff).mp hrest
    rcases hsplit with ⟨front, htext, hback⟩ | ⟨front, hsame, hback⟩
    · cases front with
      | nil => exact hne (by simpa using htext)
      | cons b front =>
        obtain ⟨rfl, -⟩ := List.cons.inj hback
        exact hclean (by simp [htext])
    · cases front with
      | nil => exact hne (by simpa using hsame.symm)
      | cons b front =>
        obtain ⟨rfl, -⟩ := List.cons.inj hback
        exact hkey (by simp [hsame])
  rw [afterFirst, hskip, if_neg Bool.false_ne_true, afterFirst_unquoted hclean]

theorem letters_unquoted (h : ∀ b ∈ key, Letter b) : (0x22 : UInt8) ∉ key := by
  intro hmem
  exact (h _ hmem).plain.1.2.1 rfl

theorem ne_of_mem {b : UInt8} (h : ∀ c ∈ key, Letter c) (hb : ¬ Letter b) (hmem : b ∈ text) :
    text ≠ key := by
  rintro rfl
  exact hb (h b hmem)

/-- A member that neither has the name nor holds it as its text is passed over up to its last
quote. -/
theorem Flat.afterFirst_value (h : Flat members) (hkey : ∀ b ∈ key, Letter b)
    {m : Bytes × Scalar} (hm : m ∈ members) (hname : m.1 ≠ key)
    (hvalue : ∀ value, m.2 = .text value → value ≠ key) : ∃ rest, (0x22 : UInt8) ∉ rest ∧
      ∀ more, afterFirst (quoted key) (memberText m ++ more) =
        afterFirst (quoted key) (0x22 :: (rest ++ more)) := by
  obtain ⟨name, scalar⟩ := m
  have hclean := letters_unquoted hkey
  have hcolon : ∀ text : Bytes, colon ∈ text → text ≠ key := fun text => ne_of_mem hkey (by decide)
  have hfirst : ∀ more, memberText (name, scalar) ++ more =
      0x22 :: (name ++ 0x22 :: (colon :: (scalar.value.stringify ++ more))) := by
    simp [memberText, quoted]
  cases scalar with
  | text value =>
    have hplain := h.plain name value hm
    have hunquoted : (0x22 : UInt8) ∉ value := fun hmem => (hplain _ hmem).1.2.1 rfl
    refine ⟨[], by simp, fun more => ?_⟩
    have hsplit : 0x22 :: colon :: ((Scalar.text value).value.stringify ++ more) =
        0x22 :: ([colon] ++ 0x22 :: (value ++ 0x22 :: more)) := by
      simp [Scalar.value, Value.stringify, quoteText_plain hplain, quoted]
    rw [hfirst, afterFirst_token hclean (letters_unquoted (h.names _ hm)) hname, hsplit,
      afterFirst_token hclean (by decide) (hcolon _ (by simp)),
      afterFirst_token hclean hunquoted (hvalue value rfl)]
    rfl
  | count value =>
    refine ⟨colon :: decimal value, fun hmem => ?_, fun more => ?_⟩
    · rcases List.mem_cons.mp hmem with hbad | hmem
      · cases hbad
      · exact absurd (decimal_digits value _ hmem).1 (by decide)
    · rw [hfirst, afterFirst_token hclean (letters_unquoted (h.names _ hm)) hname]
      simp [Scalar.value, Extension.Value.ofNumber, Value.stringify, string_natural]

theorem Flat.afterFirst_member (h : Flat members) (hkey : ∀ b ∈ key, Letter b)
    {m : Bytes × Scalar} (hm : m ∈ members) (hname : m.1 ≠ key)
    (hvalue : ∀ value, m.2 = .text value → value ≠ key) (more : Bytes) :
    afterFirst (quoted key) (memberText m ++ comma :: 0x22 :: more) =
      afterFirst (quoted key) (0x22 :: more) := by
  obtain ⟨rest, hrest, hpassed⟩ := h.afterFirst_value hkey hm hname hvalue
  have hclean : (0x22 : UInt8) ∉ rest ++ [comma] := by
    simp only [List.mem_append, List.mem_singleton, not_or]
    exact ⟨hrest, by decide⟩
  have hsplit : rest ++ comma :: 0x22 :: more = rest ++ [comma] ++ 0x22 :: more := by simp
  have hcomma : rest ++ [comma] ≠ key := ne_of_mem hkey (b := comma) (by decide) (by simp)
  rw [hpassed, hsplit, afterFirst_token (letters_unquoted hkey) hclean hcomma]

/-- A quote that no other follows. -/
theorem afterFirst_last (h : (0x22 : UInt8) ∉ text) :
    afterFirst (quoted key) (0x22 :: text) = none := by
  have hskip : (quoted key).isPrefixOf (0x22 :: text) = false := by
    rw [Bool.eq_false_iff]
    intro hprefix
    have hall := List.isPrefixOf_iff_prefix.mp hprefix
    rw [quoted, List.cons_append, List.cons_prefix_cons] at hall
    exact h (hall.2.subset (by simp))
  have hrest := @afterFirst_unquoted key text h []
  rw [List.append_nil] at hrest
  rw [afterFirst, hskip, if_neg Bool.false_ne_true, hrest]
  rfl

/-- The extractors find no member that is not there. -/
theorem Flat.absent (h : Flat members) (hkey : ∀ b ∈ key, Letter b)
    (hnames : ∀ m ∈ members, m.1 ≠ key ∧ ∀ value, m.2 = .text value → value ≠ key) :
    Protocol.jsonString (objectOf members).stringify key = none := by
  have hall : ∀ rest ⊆ members, rest ≠ [] →
      afterFirst (quoted key) ([comma].intercalate (rest.map memberText) ++ [0x7d]) = none := by
    intro rest hrest hne
    induction rest with
    | nil => exact absurd rfl hne
    | cons m rest ih =>
      obtain ⟨hm, hrest⟩ := List.cons_subset.mp hrest
      obtain ⟨hname, hvalue⟩ := hnames m hm
      cases rest with
      | nil =>
        obtain ⟨last, hlast, hpassed⟩ := h.afterFirst_value hkey hm hname hvalue
        rw [List.map_singleton, List.intercalate_singleton, hpassed]
        apply afterFirst_last
        simp only [List.mem_append, List.mem_singleton, not_or]
        exact ⟨hlast, by decide⟩
      | cons next rest =>
        have ih := ih hrest (by simp)
        obtain ⟨tail, htail⟩ : ∃ tail, [comma].intercalate ((next :: rest).map memberText) ++ [0x7d] =
            0x22 :: tail := by
          rw [List.map_cons, intercalate_cons]
          exact ⟨_, rfl⟩
        have htext : [comma].intercalate ((m :: next :: rest).map memberText) ++ [0x7d] =
            memberText m ++ comma :: 0x22 :: tail := by
          rw [← htail, List.map_cons, List.map_cons, List.intercalate_cons_cons]
          simp
        rw [htext, h.afterFirst_member hkey hm hname hvalue, ← htail]
        exact ih
  have hnone : afterFirst (quoted key) (objectOf members).stringify = none := by
    rw [h.members_text, List.cons_append, ← List.singleton_append, afterFirst_unquoted (by decide)]
    cases hcases : members with
    | nil => simp [afterFirst, quoted, List.isPrefixOf]
    | cons m rest => exact hall _ (by rw [hcases]; exact List.Subset.refl _) (by simp)
  have hquoted : quoted key = 0x22 :: key ++ [0x22] := rfl
  rw [hquoted] at hnone
  rw [Protocol.jsonString, valueStart, hnone]
  rfl

/-- The extractors find every member of a flat object. -/
theorem Flat.reads (h : Flat members) {m : Bytes × Scalar} (hm : m ∈ members) :
    Reads (objectOf members).stringify m.1 m.2.literal := by
  obtain ⟨earlier, later, hsplit⟩ := List.append_of_mem hm
  have hlabel := h.entry_eq hm
  have hkeys : (members.map entry).map (fun e => e.1.key) = members.map Prod.fst := by
    rw [List.map_map]
    apply List.map_congr_left
    intro other hother
    exact (h.entry_eq hother).1
  have hdistinct : ((earlier.map entry).map (fun e => e.1.key) ++
      (entry m).1.key :: (later.map entry).map fun e => e.1.key).Nodup := by
    have hnodup := h.distinct
    rw [← hkeys, hsplit] at hnodup
    simpa using hnodup
  let slot : Slot :=
    { lead := []
      earlier := earlier.map entry
      label := (entry m).1
      later := later.map entry
      trail := []
      hlead := List.forall_mem_nil _
      htrail := List.forall_mem_nil _
      distinct := hdistinct }
  have htext : (slot.fill (entry m).2).text = (objectOf members).stringify := by
    rw [h.stringify, hsplit, List.map_append, List.map_cons]
    rfl
  have hletters := h.names m hm
  have hfound : Found slot := by
    refine ⟨[], ?_, by simp⟩
    have hother : ∀ other ∈ earlier, other ∈ members ∧ other.1 ≠ m.1 ∧
        ∀ value, other.2 = .text value → value ≠ m.1 := by
      intro other hmem
      have hin : other ∈ members := by simp [hsplit, hmem]
      refine ⟨hin, ?_, ?_⟩
      · have hnodup := h.distinct
        rw [hsplit, List.map_append, List.nodup_append] at hnodup
        exact hnodup.2.2 _ (List.mem_map_of_mem hmem) _ (by simp)
      · intro value hvalue
        exact (h.apart other.1 value (by rw [← hvalue]; exact hin) m hm).symm
    have hskip : ∀ rest ⊆ earlier, afterFirst (quoted m.1)
        ((rest.map entry).flatMap (fun e => e.1.member e.2 ++ [comma]) ++ quoted m.1) =
          some [] := by
      intro rest hrest
      induction rest with
      | nil => simp [afterFirst, quoted]
      | cons other rest ih =>
        obtain ⟨hmem, hrest⟩ := List.cons_subset.mp hrest
        obtain ⟨hin, hname, hvalue⟩ := hother other hmem
        obtain ⟨tail, htail⟩ : ∃ tail, (rest.map entry).flatMap (fun e => e.1.member e.2 ++ [comma]) ++
            quoted m.1 = 0x22 :: tail := by
          cases rest with
          | nil => exact ⟨_, rfl⟩
          | cons next rest =>
            have hnext := (h.entry_eq (hother next (hrest (by simp))).1).2.2
            rw [List.map_cons, List.flatMap_cons, hnext]
            exact ⟨_, rfl⟩
        rw [List.map_cons, List.flatMap_cons, (h.entry_eq hin).2.2, List.append_assoc,
          List.append_assoc, htail, List.singleton_append,
          h.afterFirst_member hletters hin hname hvalue, ← htail]
        exact ih hrest
    have hbefore : slot.before = [0x7b] ++ ((earlier.map entry).flatMap
        (fun e => e.1.member e.2 ++ [comma]) ++ quoted m.1) := by
      have hfront : (entry m).1.front = quoted m.1 := by
        rw [entry, label_letters hletters]
        simp [Label.front, Label.tight, Name.plain, quoted, quote]
      simp [slot, Slot.before, hfront]
    have hkey : slot.key = m.1 := hlabel.1
    rw [hkey, hbefore, afterFirst_unquoted (by decide)]
    exact hskip earlier (List.Subset.refl _)
  have hreads := reads_of_found hfound (entry m).2
  have hkey : slot.key = m.1 := hlabel.1
  rwa [htext, hkey, hlabel.2.1] at hreads

theorem Flat.jsonString (h : Flat members) {name value : Bytes} (hm : (name, .text value) ∈ members) :
    Protocol.jsonString (objectOf members).stringify name = some value := (h.reads hm).1

theorem Flat.jsonInteger (h : Flat members) {name : Bytes} {value : Nat}
    (hm : (name, .count value) ∈ members) :
    Protocol.jsonInteger (objectOf members).stringify name = some (value : Int) := (h.reads hm).2

end Search

section Members
variable {members : Members} {key : String}

/-- The script finds every member of a flat object. -/
theorem Flat.member (h : Flat members) {scalar : Scalar} (hm : (ascii key, scalar) ∈ members) :
    (objectOf members).member key = some scalar.value := by
  have hlookup : ∀ rest : Members, (rest.map Prod.fst).Nodup → (ascii key, scalar) ∈ rest →
      (rest.map fun m => (m.1, m.2.value)).lookup (ascii key) = some scalar.value := by
    intro rest hdistinct hmem
    induction rest with
    | nil => cases hmem
    | cons m rest ih =>
      rw [List.map_cons, List.nodup_cons] at hdistinct
      rcases List.mem_cons.mp hmem with rfl | hmem
      · simp
      · have hne : ascii key ≠ m.1 := by
          intro hsame
          exact hdistinct.1 (hsame ▸ List.mem_map_of_mem hmem)
        rw [List.map_cons, List.lookup_cons, beq_eq_false_iff_ne.mpr hne]
        exact ih hdistinct.2 hmem
  exact hlookup members h.distinct hm

theorem Flat.isText (h : Flat members) {value : Bytes} (hm : (ascii key, .text value) ∈ members) :
    (objectOf members).isText key value = true := by
  simp [Value.isText, h.member hm, Scalar.value]

theorem Flat.isNumber (h : Flat members) {value : Nat} (hm : (ascii key, .count value) ∈ members) :
    (objectOf members).isNumber key (.integer value) = true := by
  simp [Value.isNumber, h.member hm, Scalar.value, Extension.Value.ofNumber]

theorem Flat.textOr (h : Flat members) {value : Bytes} (hm : (ascii key, .text value) ∈ members)
    (default : String) : Value.textOr default ((objectOf members).member key) = some value := by
  simp [Value.textOr, h.member hm, Scalar.value, Value.text]

end Members

section Criterion
variable {members : Members} {names : List Bytes}

/-- What identities, nonces, secrets and proofs consist of. -/
def Hexish (value : Bytes) : Prop := ∀ b ∈ value, isHex b = true ∨ b = 0x2d

/-- A few short names of letters that no such text is. -/
def namesFine (names : List Bytes) : Bool :=
  decide (names.length ≤ 20) && decide names.Nodup && names.all fun name =>
    decide (name.length ≤ 12) && name.all (fun b => decide (Letter b)) &&
      name.any fun b => !isHex b && b != 0x2d

def Fine (names : List Bytes) : Scalar → Prop
  | .text value => value.length ≤ 64 ∧ (Hexish value ∨ (∀ b ∈ value, Plain b) ∧ value ∉ names)
  | .count value => value < 2 ^ 53

theorem fine_hex {value : Bytes} {size : Nat} (hsize : size ≤ 64) (h : hex value size = true) :
    Fine names (.text value) := by
  simp only [hex, Bool.and_eq_true, beq_iff_eq] at h
  exact ⟨by omega, .inl fun b hb => .inl (List.all_eq_true.mp h.2 b hb)⟩

theorem fine_senderId {value : Bytes} (h : senderIdValid value = true) :
    Fine names (.text value) := by
  simp only [senderIdValid, Bool.and_eq_true, decide_eq_true_eq] at h
  refine ⟨h.1.2, .inl fun b hb => ?_⟩
  have hclass := List.all_eq_true.mp h.2 b hb
  simpa using hclass

theorem Hexish.plain {value : Bytes} (h : Hexish value) : ∀ b ∈ value, Plain b :=
  fun b hb => (characters b.toFin).2.2 (h b hb)

structure NamesFine (names : List Bytes) : Prop where
  few : names.length ≤ 20
  distinct : names.Nodup
  short : ∀ name ∈ names, name.length ≤ 12
  letters : ∀ name ∈ names, ∀ b ∈ name, Letter b
  told : ∀ name ∈ names, ∃ b ∈ name, isHex b = false ∧ b ≠ 0x2d

theorem namesFine_iff : namesFine names = true ↔ NamesFine names := by
  simp only [namesFine, Bool.and_eq_true, decide_eq_true_eq, List.all_eq_true, List.any_eq_true,
    Bool.not_eq_true', bne_iff_ne]
  constructor
  · intro h
    exact ⟨h.1.1, h.1.2, fun name hname => (h.2 name hname).1.1,
      fun name hname => (h.2 name hname).1.2, fun name hname => (h.2 name hname).2⟩
  · intro h
    exact ⟨⟨h.few, h.distinct⟩, fun name hname =>
      ⟨⟨h.short name hname, h.letters name hname⟩, h.told name hname⟩⟩

theorem flat_of_fine (hmembers : members.map Prod.fst = names) (hnames : namesFine names = true)
    (hvalues : ∀ m ∈ members, Fine names m.2) : Flat members := by
  have hn := namesFine_iff.mp hnames
  have hin : ∀ m ∈ members, m.1 ∈ names := by
    intro m hm
    rw [← hmembers]
    exact List.mem_map_of_mem hm
  refine ⟨fun m hm => hn.letters _ (hin m hm), hmembers ▸ hn.distinct, ?_, ?_, ?_⟩
  · intro name value hm
    rcases (hvalues _ hm).2 with hhex | ⟨hplain, -⟩
    · exact hhex.plain
    · exact hplain
  · rintro name value hm m hmem rfl
    rcases (hvalues _ hm).2 with hhex | ⟨-, hother⟩
    · obtain ⟨b, hb, hnot, hdash⟩ := hn.told _ (hin m hmem)
      rcases hhex b hb with hb | hb
      · rw [hnot] at hb
        cases hb
      · exact hdash hb
    · exact hother (hin m hmem)
  · exact fun name value hm => hvalues _ hm

theorem memberText_length {m : Bytes × Scalar} (hflat : Flat members) (hm : m ∈ members)
    (hname : m.1.length ≤ 12) (hvalue : Fine names m.2) : (memberText m).length ≤ 81 := by
  obtain ⟨name, scalar⟩ := m
  replace hname : name.length ≤ 12 := hname
  cases scalar with
  | text value =>
    have hsize : value.length ≤ 64 := hvalue.1
    simp only [memberText, Scalar.value, Value.stringify, quoteText_plain (hflat.plain name value hm),
      quoted, List.length_append, List.length_cons, List.length_nil]
    omega
  | count value =>
    have hsmall : value < 2 ^ 53 := hvalue
    have hsize := decimal_length (by decide : 0 < 16) (by omega : value < 10 ^ 16)
    simp only [memberText, Scalar.value, Extension.Value.ofNumber, Value.stringify, string_natural,
      quoted, List.length_append, List.length_cons, List.length_nil]
    omega

/-- Such a message keeps to the limit that either end sets. -/
theorem short_of_fine (hmembers : members.map Prod.fst = names) (hnames : namesFine names = true)
    (hvalues : ∀ m ∈ members, Fine names m.2) : (objectOf members).stringify.length ≤ 2048 := by
  have hflat := flat_of_fine hmembers hnames hvalues
  have hn := namesFine_iff.mp hnames
  have hcount : members.length ≤ 20 := by
    have hfew := hn.few
    rwa [← hmembers, List.length_map] at hfew
  have hone : ∀ m ∈ members, (memberText m).length ≤ 81 := by
    intro m hm
    refine memberText_length hflat hm (hn.short _ ?_) (hvalues m hm)
    rw [← hmembers]
    exact List.mem_map_of_mem hm
  have hall : ∀ rest ⊆ members,
      ((rest.map entry).flatMap fun m => comma :: m.1.member m.2).length ≤ 82 * rest.length := by
    intro rest hrest
    induction rest with
    | nil => simp
    | cons m rest ih =>
      obtain ⟨hm, hrest⟩ := List.cons_subset.mp hrest
      have hm := (congrArg List.length (hflat.entry_eq hm).2.2).trans_le (hone m hm)
      have hrest := ih hrest
      simp only [List.map_cons, List.flatMap_cons, List.length_append, List.length_cons] at hrest ⊢
      omega
  rw [hflat.stringify]
  cases hcases : members with
  | nil => simp [membersText]
  | cons m rest =>
    rw [hcases] at hall hcount
    have hrest := hall rest (List.subset_cons_self m rest)
    have hm := (congrArg List.length
      (hflat.entry_eq (by simp [hcases] : m ∈ members)).2.2).trans_le (hone m (by simp [hcases]))
    simp only [List.map_cons, membersText, List.length_cons, List.length_append,
      List.length_nil] at hrest hm hcount ⊢
    omega

/-- A message as either end composes it. -/
structure Composed (members : Members) (names : List Bytes) : Prop where
  named : members.map Prod.fst = names
  fine : namesFine names = true
  values : ∀ m ∈ members, Fine names m.2

theorem Composed.flat (h : Composed members names) : Flat members :=
  flat_of_fine h.named h.fine h.values

theorem Composed.short (h : Composed members names) : (objectOf members).stringify.length ≤ 2048 :=
  short_of_fine h.named h.fine h.values

end Criterion

end HarmonyScreen.Proofs.FlatObjects
