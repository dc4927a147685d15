import HarmonyScreen.Extension.TrustedDevice
import Mathlib.Data.List.DropRight

namespace HarmonyScreen.Proofs.ReceiverHost
open Receiver
open Extension
open Extension.DirectProtocol
open Extension.HostPermissions

section Digits

/-- How the digits of an octet are read back. -/
theorem octet_digits : ∀ n < 256, octetTest (Nat.toDigits 10 n) = true ∧
    octetNumber (Nat.toDigits 10 n) = n ∧
    (Nat.toDigits 10 n).all (fun c => c.isDigit && !isSpace c && c.toLower == c) = true := by
  decide +kernel

theorem digit_plain {n : Nat} (hn : n < 256) {c : Char} (hc : c ∈ Nat.toDigits 10 n) :
    c.isDigit = true ∧ isSpace c = false ∧ c.toLower = c := by
  have hall := List.all_eq_true.mp (octet_digits n hn).2.2 c hc
  simp only [Bool.and_eq_true, Bool.not_eq_true', beq_iff_eq] at hall
  exact ⟨hall.1.1, hall.1.2, hall.2⟩

end Digits

/-- The octets of an address that lies in a private network. -/
structure Octets (numbers : List Nat) : Prop where
  four : numbers.length = 4
  small : ∀ n ∈ numbers, n < 256
  privateAddress : numbers.getD 0 0 = 10 ∨
    (numbers.getD 0 0 = 172 ∧ 16 ≤ numbers.getD 1 0 ∧ numbers.getD 1 0 ≤ 31) ∨
    (numbers.getD 0 0 = 192 ∧ numbers.getD 1 0 = 168) ∨
    (numbers.getD 0 0 = 169 ∧ numbers.getD 1 0 = 254)

def dotted (numbers : List Nat) : Text := ['.'].intercalate (numbers.map (Nat.toDigits 10))

section Dotted
variable {numbers : List Nat} {host normalized origin : Text} {c : Char}

theorem splitOn_dotted (h : Octets numbers) :
    (dotted numbers).splitOn '.' = numbers.map (Nat.toDigits 10) := by
  rw [dotted]
  apply List.splitOn_intercalate
  · intro part hpart hdot
    obtain ⟨n, hn, rfl⟩ := List.mem_map.mp hpart
    have := (digit_plain (h.small n hn) hdot).1
    exact absurd this (by decide)
  · intro hnil
    have hfour := h.four
    rw [List.map_eq_nil_iff.mp hnil] at hfour
    cases hfour

theorem dotted_plain (h : Octets numbers) (hc : c ∈ dotted numbers) :
    (c = '.' ∨ c.isDigit = true) ∧ isSpace c = false ∧ c.toLower = c := by
  rw [dotted] at hc
  have hsmall := h.small
  clear h
  induction numbers with
  | nil => cases hc
  | cons n numbers ih =>
    have hrest := fun m hm => hsmall m (List.mem_cons_of_mem n hm)
    cases numbers with
    | nil =>
      rw [List.map_singleton, List.intercalate_singleton] at hc
      obtain ⟨hdigit, hplain⟩ := digit_plain (hsmall n (List.mem_cons_self ..)) hc
      exact ⟨.inr hdigit, hplain⟩
    | cons m numbers =>
      rw [List.map_cons, List.map_cons, List.intercalate_cons_cons, List.append_assoc,
        List.mem_append, List.singleton_append, List.mem_cons] at hc
      rcases hc with hc | rfl | hc
      · obtain ⟨hdigit, hplain⟩ := digit_plain (hsmall n (List.mem_cons_self ..)) hc
        exact ⟨.inr hdigit, hplain⟩
      · exact ⟨.inl rfl, by decide, by decide⟩
      · exact ih hc hrest

theorem dropWhile_plain {value : Text} (h : ∀ c ∈ value, isSpace c = false) :
    value.dropWhile isSpace = value := by
  cases value with
  | nil => rfl
  | cons c value => rw [List.dropWhile_cons, h c (List.mem_cons_self ..), if_neg Bool.false_ne_true]

theorem trim_plain {value : Text} (h : ∀ c ∈ value, isSpace c = false) : trim value = value := by
  rw [trim, dropWhile_plain h, dropWhile_plain, List.reverse_reverse]
  intro c hc
  exact h c (List.mem_reverse.mp hc)

theorem lower_plain {value : Text} (h : ∀ c ∈ value, c.toLower = c) : value.map Char.toLower = value := by
  rw [List.map_congr_left h, List.map_id']

theorem dotted_ne_default (h : Octets numbers) : dotted numbers ≠ defaultReceiverHost := by
  intro heq
  have hmem : 'h' ∈ dotted numbers := by
    rw [heq]
    decide
  rcases (dotted_plain h hmem).1 with hdot | hdigit
  · exact absurd hdot (by decide)
  · exact absurd hdigit (by decide)

theorem normalize_dotted (h : Octets numbers) :
    normalizeReceiverHost (dotted numbers) = .ok (dotted numbers) := by
  have htrim := trim_plain fun c hc => (dotted_plain h hc).2.1
  have hlower := lower_plain fun c hc => (dotted_plain h hc).2.2
  have hnumbers : (numbers.map (Nat.toDigits 10)).map octetNumber = numbers := by
    rw [List.map_map]
    exact (List.map_congr_left fun n hn => (octet_digits n (h.small n hn)).2.1).trans (List.map_id' _)
  have hoctets : ((numbers.map (Nat.toDigits 10)).any fun part => !octetTest part) = false := by
    rw [List.any_eq_false]
    intro part hpart
    obtain ⟨n, hn, rfl⟩ := List.mem_map.mp hpart
    simp [(octet_digits n (h.small n hn)).1]
  have hsmall : (numbers.any fun n => n > 255) = false := by
    rw [List.any_eq_false]
    intro n hn
    have := h.small n hn
    simpa using Nat.le_of_lt_succ this
  rw [normalizeReceiverHost, htrim, hlower]
  dsimp only
  rw [if_neg (dotted_ne_default h), splitOn_dotted h, hnumbers, hoctets, hsmall, List.length_map,
    h.four, if_neg (by decide), if_pos h.privateAddress, dotted]

theorem normalize_default : normalizeReceiverHost defaultReceiverHost = .ok defaultReceiverHost := by
  decide

/-- What a host is normalized to. -/
theorem normalize_ok (h : normalizeReceiverHost host = .ok normalized) :
    normalized = defaultReceiverHost ∨ ∃ numbers, Octets numbers ∧ normalized = dotted numbers := by
  unfold normalizeReceiverHost at h
  dsimp only at h
  split at h
  · rename_i hdefault
    cases h
    exact .inl hdefault
  · split at h
    · cases h
    · rename_i hvalid
      split at h
      · rename_i hprivate
        cases h
        simp only [not_or, not_not, Bool.not_eq_true, List.any_eq_false, decide_eq_true_eq, not_lt]
          at hvalid
        refine .inr ⟨_, ⟨?_, ?_, hprivate⟩, rfl⟩
        · rw [List.length_map]
          exact hvalid.1
        · intro n hn
          exact Nat.lt_succ_of_le (hvalid.2.2 n hn)
      · cases h

theorem normalize_idem (h : normalizeReceiverHost host = .ok normalized) :
    normalizeReceiverHost normalized = .ok normalized := by
  rcases normalize_ok h with rfl | ⟨numbers, hnumbers, rfl⟩
  · exact normalize_default
  · exact normalize_dotted hnumbers

theorem origin_normalized (h : normalizeReceiverHost host = .ok normalized) :
    manualHostOrigin normalized = manualHostOrigin host := by
  rw [manualHostOrigin, manualHostOrigin, h, normalize_idem h]

theorem trim_trim (value : Text) : trim (trim value) = trim value := by
  have htrim : ∀ value, trim value = (value.dropWhile isSpace).rdropWhile isSpace := fun _ => rfl
  have hfront : (trim value).dropWhile isSpace = trim value := by
    obtain ⟨more, hmore⟩ := List.rdropWhile_prefix isSpace (value.dropWhile isSpace)
    rw [← htrim] at hmore
    cases hvalue : trim value with
    | nil => rfl
    | cons c rest =>
      have hself := List.dropWhile_idempotent isSpace value
      rw [← hmore, hvalue] at hself
      have hplain := List.dropWhile_eq_self_iff.mp hself (Nat.succ_pos _)
      exact List.dropWhile_cons_of_neg hplain
  rw [htrim (trim value), hfront, htrim value, List.rdropWhile_idempotent]

theorem origin_trim (value : Text) : manualHostOrigin (trim value) = manualHostOrigin value := by
  rw [manualHostOrigin, manualHostOrigin, normalizeReceiverHost, normalizeReceiverHost, trim_trim]

/-- The origin of a host is a manual private one. -/
theorem manual_origin (h : manualHostOrigin host = .ok (some origin)) :
    isManualPrivateIpv4Origin origin = true := by
  rw [manualHostOrigin] at h
  cases hnormalized : normalizeReceiverHost host with
  | error message =>
    rw [hnormalized] at h
    cases h
  | ok normalized =>
    rw [hnormalized] at h
    dsimp only at h
    rcases normalize_ok hnormalized with rfl | ⟨numbers, hnumbers, rfl⟩
    · rw [if_pos rfl] at h
      cases h
    · rw [if_neg (dotted_ne_default hnumbers)] at h
      cases h
      have hinside : ((("http://".toList ++ dotted numbers ++ "/*".toList).drop 7).dropLast).dropLast =
          dotted numbers := by
        have hscheme : "http://".toList.length = 7 := by decide
        have hend : "/*".toList = ['/', '*'] := by decide
        rw [List.append_assoc, List.drop_left' hscheme, hend, List.append_cons, List.dropLast_concat,
          List.dropLast_concat]
      have hhost : originHost ("http://".toList ++ dotted numbers ++ "/*".toList) =
          some (dotted numbers) := by
        rw [originHost, hinside, if_pos]
        refine ⟨rfl, ?_, ?_⟩
        · rw [splitOn_dotted hnumbers, List.length_map, hnumbers.four]
        · rw [splitOn_dotted hnumbers, List.all_eq_true]
          intro part hpart
          obtain ⟨n, hn, rfl⟩ := List.mem_map.mp hpart
          exact (octet_digits n (hnumbers.small n hn)).1
      rw [isManualPrivateIpv4Origin, hhost]
      dsimp only
      rw [normalize_dotted hnumbers]
      exact beq_self_eq_true _

end Dotted

end HarmonyScreen.Proofs.ReceiverHost
