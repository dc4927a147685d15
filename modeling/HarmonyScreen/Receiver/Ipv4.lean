import Mathlib.Data.List.Forall2
import Mathlib.Data.List.TakeWhile
import HarmonyScreen.Receiver.MdnsProtocol

namespace HarmonyScreen.Receiver.Mdns

/-- `find` of a character from an offset on. -/
def findFrom (text : Bytes) (c : UInt8) (start : Nat) : Option Nat :=
  ((text.drop start).findIdx? (· == c)).map (start + ·)

def isDigit (c : UInt8) : Bool := 0x30 ≤ c && c ≤ 0x39

/-- `std::from_chars` of an unsigned number: its value and how much of the text it is.
Three digits do not overflow. -/
def fromChars (text : Bytes) : Option (Nat × Nat) :=
  let digits := text.takeWhile isDigit
  if digits = [] then none
  else some (digits.foldl (fun value c => value * 10 + (c.toNat - 0x30)) 0, digits.length)

/-- One turn's part in the loop of `ParseIpv4Address`. -/
def parsePart (part : Bytes) : Option UInt8 :=
  if part = [] ∨ part.length > 3 then none
  else
    match fromChars part with
    | none => none
    | some (value, read) =>
      if read ≠ part.length ∨ value > 255 ∨ (part.length > 1 ∧ part.head? = some 0x30) then none
      else some value.toUInt8

/-- The loop of `ParseIpv4Address` over the parts that are left, from the offset
where the next one starts. -/
def partLoop (text : Bytes) : (left start : Nat) → Option Bytes
  | 0, start => if start ≠ text.length then none else some []
  | left + 1, start =>
    let stop := findFrom text 0x2e start
    if (left ≠ 0 ∧ stop = none) ∨ (left = 0 ∧ stop ≠ none) then none
    else
      match parsePart ((text.drop start).take (stop.getD text.length - start)) with
      | none => none
      | some octet =>
        (partLoop text left (stop.elim text.length (· + 1))).map (octet :: ·)

/-- `ParseIpv4Address`, offset by offset. -/
def scanIpv4Address (text : Bytes) : Option Ipv4Address :=
  if text = [] then none
  else
    match partLoop text 4 0 with
    | none => none
    | some octets => Ipv4Address.ofBytes octets

theorem takeWhile_length {p : α → Bool} {text : List α}
    (h : (text.takeWhile p).length = text.length) : text.all p = true := by
  rw [← (List.takeWhile_prefix p).eq_of_length h]
  exact List.all_takeWhile

theorem parsePart_eq (part : Bytes) : parsePart part = parseOctet part := by
  have hfold : (fun c : UInt8 => (0x30 ≤ c && c ≤ 0x39 : Bool)) = isDigit := rfl
  unfold parsePart parseOctet
  dsimp only
  rw [hfold]
  by_cases hshort : part = [] ∨ part.length > 3
  · rw [if_pos hshort, if_pos (hshort.elim .inl fun h => .inr (.inl h))]
  rw [if_neg hshort]
  simp only [not_or] at hshort
  by_cases hall : part.all isDigit = true
  · have htake : part.takeWhile isDigit = part :=
      List.takeWhile_eq_self_iff.mpr fun c hc => List.all_eq_true.mp hall c hc
    simp [fromChars, htake, hshort, hall]
  · rw [if_pos (.inr (.inr (.inl (by simpa using hall))))]
    cases hread : fromChars part with
    | none => rfl
    | some r =>
      obtain ⟨value, read⟩ := r
      have hlength : read ≠ part.length := by
        intro h
        unfold fromChars at hread
        dsimp only at hread
        split at hread
        · cases hread
        · cases hread
          exact hall (takeWhile_length h)
      exact if_pos (.inl hlength)

/-- What lies before the first character of a kind, and what behind it. -/
theorem findIdx_split {text : Bytes} {c : UInt8} {i : Nat}
    (h : text.findIdx? (· == c) = some i) :
    c ∉ text.take i ∧ text = text.take i ++ c :: text.drop (i + 1) := by
  obtain ⟨hi, hc, hbefore⟩ := List.findIdx?_eq_some_iff_getElem.mp h
  refine ⟨fun hmem => ?_, ?_⟩
  · obtain ⟨j, hj, hjc⟩ := List.getElem_of_mem hmem
    rw [List.length_take] at hj
    rw [List.getElem_take] at hjc
    exact hbefore j (by omega) (by simp [hjc])
  · rw [← beq_iff_eq.mp hc, List.getElem_cons_drop, List.take_append_drop]

/-- A turn of the loop when a dot follows, or none. -/
theorem splitOn_findFrom {text : Bytes} {start : Nat} (hstart : start ≤ text.length) :
    (findFrom text 0x2e start = none ∧ (text.drop start).splitOn 0x2e = [text.drop start]) ∨
      ∃ stop, findFrom text 0x2e start = some stop ∧ stop + 1 ≤ text.length ∧ start ≤ stop ∧
        (text.drop start).splitOn 0x2e =
          (text.drop start).take (stop - start) :: (text.drop (stop + 1)).splitOn 0x2e := by
  cases hfind : (text.drop start).findIdx? (· == 0x2e) with
  | none =>
    refine .inl ⟨by simp [findFrom, hfind], List.splitOn_eq_singleton fun hmem => ?_⟩
    exact absurd (List.findIdx?_eq_none_iff.mp hfind _ hmem) (by simp)
  | some i =>
    obtain ⟨hnot, hsplit⟩ := findIdx_split hfind
    have hi : i < (text.drop start).length := (List.findIdx?_eq_some_iff_getElem.mp hfind).1
    rw [List.length_drop] at hi
    refine .inr ⟨start + i, by simp [findFrom, hfind], by omega, by omega, ?_⟩
    conv_lhs => rw [hsplit]
    rw [List.splitOn_append_cons_self_of_not_mem hnot, List.drop_drop, Nat.add_sub_cancel_left,
      Nat.add_assoc]

/-- The loop reads the parts between the dots. -/
theorem partLoop_eq (text : Bytes) (left start : Nat) (hstart : start ≤ text.length) :
    partLoop text (left + 1) start =
      if ((text.drop start).splitOn 0x2e).length = left + 1
      then ((text.drop start).splitOn 0x2e).mapM parseOctet else none := by
  induction left generalizing start with
  | zero =>
    rcases splitOn_findFrom hstart with ⟨hfind, hsplit⟩ | ⟨stop, hfind, -, -, hsplit⟩
    · have htake : (text.drop start).take (text.length - start) = text.drop start :=
        List.take_of_length_le (by rw [List.length_drop])
      rw [hsplit, partLoop]
      simp only [hfind, Option.getD_none, htake, parsePart_eq, Option.elim_none]
      cases hoctet : parseOctet (text.drop start) <;> simp [partLoop, hoctet]
    · have hne : 0 < ((text.drop (stop + 1)).splitOn 0x2e).length :=
        List.length_pos_iff.mpr (List.splitOn_ne_nil _ _)
      rw [hsplit, List.length_cons, if_neg (by omega), partLoop]
      simp [hfind]
  | succ left ih =>
    rcases splitOn_findFrom hstart with ⟨hfind, hsplit⟩ | ⟨stop, hfind, hstop, hle, hsplit⟩
    · rw [hsplit, if_neg (by simp), partLoop]
      simp [hfind]
    · have hlength : ((text.drop start).take (stop - start) ::
          (text.drop (stop + 1)).splitOn 0x2e).length = left + 1 + 1 ↔
            ((text.drop (stop + 1)).splitOn 0x2e).length = left + 1 := by
        rw [List.length_cons, Nat.add_right_cancel_iff]
      have hmore : ¬ (left + 1 ≠ 0 ∧ some stop = none ∨ left + 1 = 0 ∧ some stop ≠ none) := by simp
      rw [hsplit, partLoop]
      simp only [hfind, if_neg hmore, Option.getD_some, parsePart_eq, Option.elim_some, ih _ hstop, hlength,
        List.mapM_cons]
      cases hoctet : parseOctet ((text.drop start).take (stop - start)) with
      | none => simp
      | some octet =>
        by_cases hparts : ((text.drop (stop + 1)).splitOn 0x2e).length = left + 1
        · rw [if_pos hparts, if_pos hparts]
          cases ((text.drop (stop + 1)).splitOn 0x2e).mapM parseOctet <;> simp
        · rw [if_neg hparts, if_neg hparts]
          rfl

theorem mapM_forall₂ {f : α → Option β} {xs : List α} {ys : List β} :
    xs.mapM f = some ys ↔ List.Forall₂ (fun x y => f x = some y) xs ys := by
  induction xs generalizing ys with
  | nil => simp [eq_comm]
  | cons x xs ih =>
    cases ys with
    | nil => cases hf : f x <;> cases hrest : xs.mapM f <;> simp [hf, hrest]
    | cons y ys =>
      rw [List.forall₂_cons, ← ih]
      cases hf : f x <;> cases hrest : xs.mapM f <;> simp [hf, hrest]

theorem ofBytes_length {octets : Bytes} {address : Ipv4Address}
    (h : Ipv4Address.ofBytes octets = some address) : octets.length = 4 := by
  unfold Ipv4Address.ofBytes at h
  split at h
  · rfl
  · cases h

theorem scanIpv4Address_eq (text : Bytes) : scanIpv4Address text = parseIpv4Address text := by
  unfold scanIpv4Address parseIpv4Address
  rw [partLoop_eq text 3 0 (Nat.zero_le _), List.drop_zero]
  by_cases hfour : (text.splitOn 0x2e).length = 3 + 1
  · rw [if_pos hfour]
    cases (text.splitOn 0x2e).mapM parseOctet <;> rfl
  · rw [if_neg hfour]
    cases hoctets : (text.splitOn 0x2e).mapM parseOctet with
    | none => rfl
    | some octets =>
      have hnone : Ipv4Address.ofBytes octets = none := by
        by_contra h
        obtain ⟨address, haddress⟩ := Option.ne_none_iff_exists'.mp h
        exact hfour ((mapM_forall₂.mp hoctets).length_eq.trans (ofBytes_length haddress))
      simp [hnone]

end HarmonyScreen.Receiver.Mdns
