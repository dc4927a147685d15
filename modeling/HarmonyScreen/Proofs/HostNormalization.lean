import HarmonyScreen.Proofs.ReceiverHost
import HarmonyScreen.Receiver.Ipv4

namespace HarmonyScreen.Proofs.HostNormalization
open Receiver Mdns Extension Extension.DirectProtocol ReceiverHost

variable {text : Bytes} {value normalized : Text} {address : Ipv4Address}

/-- The bytes of a text of the script. -/
def utf8 (value : Text) : Bytes := value.flatMap String.utf8EncodeChar

/-- A number as its decimal digits. -/
def decimal (b : UInt8) : Text := Nat.toDigits 10 b.toNat

/-- The canonical text of an address: four numbers without leading zeros, and dots. -/
def dottedQuad (address : Ipv4Address) : Text := dotted (address.bytes.map UInt8.toNat)

section Octets

theorem parseOctet_decimal (b : UInt8) : parseOctet (utf8 (decimal b)) = some b := by
  have h : ∀ n < 256, parseOctet (utf8 (Nat.toDigits 10 n)) = some n.toUInt8 ∧
      0x2e ∉ utf8 (Nat.toDigits 10 n) := by
    decide +kernel
  rw [decimal, (h b.toNat b.toNat_lt).1]
  simp [Nat.toUInt8]

theorem dot_decimal (b : UInt8) : 0x2e ∉ utf8 (decimal b) := by
  have h : ∀ n < 256, 0x2e ∉ utf8 (Nat.toDigits 10 n) := by
    decide +kernel
  exact h b.toNat b.toNat_lt

/-- A digit of the text by its value. -/
def digit (d : Fin 10) : UInt8 := 0x30 + d.val.toUInt8

theorem digit_of_range {c : UInt8} (h : 0x30 ≤ c ∧ c ≤ 0x39) : ∃ d, c = digit d := by
  simp only [UInt8.le_iff_toNat_le] at h
  have hlow : 0x30 ≤ c.toNat := h.1
  have hhigh : c.toNat ≤ 0x39 := h.2
  refine ⟨⟨c.toNat - 0x30, by omega⟩, UInt8.toNat_inj.mp ?_⟩
  simp only [digit, UInt8.toNat_add, Nat.toUInt8, UInt8.toNat_ofNat']
  have hlow' : (0x30 : UInt8).toNat = 0x30 := rfl
  omega

/-- A text is refused as an octet, or is the decimal text of what is read. -/
def readsDecimal (part : Bytes) : Bool := (parseOctet part).all fun b => part == utf8 (decimal b)

theorem readsDecimal_digits : (∀ a : Fin 10, readsDecimal [digit a] = true) ∧
    (∀ a b : Fin 10, readsDecimal [digit a, digit b] = true) ∧
    ∀ a b c : Fin 10, readsDecimal [digit a, digit b, digit c] = true := by
  decide

theorem decimal_of_reads {part : Bytes} {b : UInt8} (h : readsDecimal part = true)
    (hoctet : parseOctet part = some b) : part = utf8 (decimal b) := by
  rw [readsDecimal, hoctet] at h
  exact eq_of_beq h

/-- What is accepted as an octet is its decimal text. -/
theorem decimal_of_parseOctet {part : Bytes} {b : UInt8} (h : parseOctet part = some b) :
    part = utf8 (decimal b) := by
  have hshape : part ≠ [] ∧ part.length ≤ 3 ∧ ∀ c ∈ part, ∃ d, c = digit d := by
    unfold parseOctet at h
    dsimp only at h
    split at h
    · cases h
    · rename_i hvalid
      simp only [not_or] at hvalid
      have hdigits : ∀ c ∈ part, 0x30 ≤ c ∧ c ≤ 0x39 := by simpa using hvalid.2.2.1
      exact ⟨hvalid.1, by omega, fun c hc => digit_of_range (hdigits c hc)⟩
  obtain ⟨hne, hlen, hdigits⟩ := hshape
  rcases part with _ | ⟨a, _ | ⟨b', _ | ⟨c, _ | ⟨d, rest⟩⟩⟩⟩
  · exact absurd rfl hne
  · obtain ⟨a, rfl⟩ := hdigits a (by simp)
    exact decimal_of_reads (readsDecimal_digits.1 a) h
  · obtain ⟨a, rfl⟩ := hdigits a (by simp)
    obtain ⟨b', rfl⟩ := hdigits b' (by simp)
    exact decimal_of_reads (readsDecimal_digits.2.1 a b') h
  · obtain ⟨a, rfl⟩ := hdigits a (by simp)
    obtain ⟨b', rfl⟩ := hdigits b' (by simp)
    obtain ⟨c, rfl⟩ := hdigits c (by simp)
    exact decimal_of_reads (readsDecimal_digits.2.2 a b' c) h
  · simp only [List.length_cons] at hlen
    omega

end Octets

theorem utf8_append (value rest : Text) : utf8 (value ++ rest) = utf8 value ++ utf8 rest :=
  List.flatMap_append ..

theorem utf8_intercalate (parts : List Text) :
    utf8 (['.'].intercalate parts) = [0x2e].intercalate (parts.map utf8) := by
  have hdot : utf8 ['.'] = [0x2e] := by decide
  induction parts with
  | nil => rfl
  | cons part parts ih =>
    cases parts with
    | nil => simp
    | cons next parts =>
      rw [List.intercalate_cons_cons, utf8_append, utf8_append, ih, hdot, List.map_cons,
        List.map_cons, List.map_cons, List.intercalate_cons_cons]

theorem utf8_dottedQuad (address : Ipv4Address) :
    utf8 (dottedQuad address) = [0x2e].intercalate (address.bytes.map fun b => utf8 (decimal b)) := by
  rw [dottedQuad, dotted, utf8_intercalate, List.map_map, List.map_map]
  rfl

theorem splitOn_dottedQuad (address : Ipv4Address) :
    (utf8 (dottedQuad address)).splitOn 0x2e = address.bytes.map fun b => utf8 (decimal b) := by
  rw [utf8_dottedQuad]
  apply List.splitOn_intercalate
  · intro part hpart
    obtain ⟨b, -, rfl⟩ := List.mem_map.mp hpart
    exact dot_decimal b
  · simp [Ipv4Address.bytes]

theorem ofBytes_eq_some {octets : Bytes} :
    Ipv4Address.ofBytes octets = some address ↔ octets = address.bytes := by
  constructor
  · intro h
    unfold Ipv4Address.ofBytes at h
    split at h
    · cases h
      rfl
    · cases h
  · rintro rfl
    rfl

/-- Exactly the canonical texts are accepted. -/
theorem parse_iff : parseIpv4Address text = some address ↔ text = utf8 (dottedQuad address) := by
  constructor
  · intro h
    unfold parseIpv4Address at h
    split at h
    · cases h
    · split at h
      · rename_i octets hoctets
        rw [ofBytes_eq_some.mp h] at hoctets
        have hparts : text.splitOn 0x2e = address.bytes.map fun b => utf8 (decimal b) := by
          rw [← List.forall₂_eq_eq_eq, List.forall₂_map_right_iff]
          exact (mapM_forall₂.mp hoctets).imp fun _ _ => decimal_of_parseOctet
        rw [utf8_dottedQuad, ← hparts, List.intercalate_splitOn]
      · cases h
  · rintro rfl
    have hne : utf8 (dottedQuad address) ≠ [] := by
      intro hnil
      have hsplit := splitOn_dottedQuad address
      rw [hnil] at hsplit
      simpa [Ipv4Address.bytes] using congrArg List.length hsplit
    have hoctets : (address.bytes.map fun b => utf8 (decimal b)).mapM parseOctet =
        some address.bytes := by
      rw [mapM_forall₂, List.forall₂_map_left_iff, List.forall₂_same]
      exact fun b _ => parseOctet_decimal b
    rw [parseIpv4Address, if_neg hne, splitOn_dottedQuad, hoctets]
    exact ofBytes_eq_some.mpr rfl

theorem octets_of_trusted (h : isTrustedLanAddress address = true) :
    Octets (address.bytes.map UInt8.toNat) := by
  refine ⟨rfl, fun n hn => ?_, ?_⟩
  · obtain ⟨b, -, rfl⟩ := List.mem_map.mp hn
    exact b.toNat_lt
  · simpa [isTrustedLanAddress, Ipv4Address.bytes, ← UInt8.toNat_inj, UInt8.le_iff_toNat_le,
      or_assoc, and_assoc] using h

theorem trusted_of_octets {numbers : List Nat} (h : Octets numbers) :
    ∃ address, isTrustedLanAddress address = true ∧ numbers = address.bytes.map UInt8.toNat := by
  obtain ⟨hfour, hsmall, hprivate⟩ := h
  obtain ⟨a, b, c, d, rfl⟩ : ∃ a b c d, numbers = [a, b, c, d] := by
    match numbers, hfour with
    | [a, b, c, d], _ => exact ⟨a, b, c, d, rfl⟩
  have hmod : ∀ n ∈ [a, b, c, d], n.toUInt8.toNat = n := fun n hn => by
    simp [Nat.toUInt8, Nat.mod_eq_of_lt (hsmall n hn)]
  simp only [List.mem_cons, List.not_mem_nil, or_false, forall_eq_or_imp, forall_eq] at hmod
  refine ⟨⟨a.toUInt8, b.toUInt8, c.toUInt8, d.toUInt8⟩, ?_, ?_⟩
  · simpa [isTrustedLanAddress, ← UInt8.toNat_inj, UInt8.le_iff_toNat_le, hmod, or_assoc,
      and_assoc] using hprivate
  · simp [Ipv4Address.bytes, hmod]

/-- A host is normalized to the default name or to the canonical text of a trusted address,
which the receiver reads as that address; and the receiver reads nothing else. -/
theorem host_normalization :
    (∀ value normalized, normalizeReceiverHost value = .ok normalized →
      normalizeReceiverHost normalized = .ok normalized ∧
        (normalized = defaultReceiverHost ∨ ∃ address, isTrustedLanAddress address = true ∧
          normalized = dottedQuad address ∧
          scanIpv4Address (utf8 normalized) = some address)) ∧
    (∀ text address, scanIpv4Address text = some address ↔ text = utf8 (dottedQuad address)) ∧
    ∀ text address, scanIpv4Address text = some address → isTrustedLanAddress address = true →
      ∃ value, text = utf8 value ∧ normalizeReceiverHost value = .ok value := by
  simp only [scanIpv4Address_eq]
  refine ⟨fun value normalized h => ⟨normalize_idem h, ?_⟩, fun text address => parse_iff,
    fun text address h htrusted => ?_⟩
  · rcases normalize_ok h with hdefault | ⟨numbers, hnumbers, rfl⟩
    · exact .inl hdefault
    · obtain ⟨address, htrusted, rfl⟩ := trusted_of_octets hnumbers
      exact .inr ⟨address, htrusted, rfl, parse_iff.mpr rfl⟩
  · exact ⟨dottedQuad address, parse_iff.mp h, normalize_dotted (octets_of_trusted htrusted)⟩

/-- Blanks and leading zeros are taken off before the receiver sees the address. -/
theorem host_normalization_padded :
    normalizeReceiverHost " 192.168.001.8".toList = .ok "192.168.1.8".toList ∧
      normalizeReceiverHost "192.168.1.8".toList = .ok "192.168.1.8".toList := by
  have hpadded : normalizeReceiverHost " 192.168.001.8".toList = .ok "192.168.1.8".toList := by
    decide
  exact ⟨hpadded, (host_normalization.1 _ _ hpadded).1⟩

end HarmonyScreen.Proofs.HostNormalization
