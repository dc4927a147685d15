import HarmonyScreen.Lib.Json
import HarmonyScreen.Receiver.NativeProtocol

namespace HarmonyScreen.Proofs.JsonFields
open Receiver
open Receiver.Protocol
open Lib.Json

/-- What the two extractors have to say about a member of a text. -/
def Reads (text key : Bytes) (value : Value) : Prop :=
  jsonString text key = value.asString ∧ jsonInteger text key = value.asInteger

def quoted (key : Bytes) : Bytes := 0x22 :: key ++ [0x22]

section Search
variable {needle text rest more : Bytes}

theorem afterFirst_suffix (h : afterFirst needle text = some rest) :
    rest <:+ text ∧ rest.length + needle.length ≤ text.length := by
  induction text with
  | nil =>
    simp only [afterFirst] at h
    split at h
    · rename_i hneedle
      obtain rfl := Option.some.inj h
      exact ⟨⟨[], rfl⟩, by simp [hneedle]⟩
    · cases h
  | cons b text ih =>
    simp only [afterFirst] at h
    split at h
    · rename_i hhere
      obtain rfl := Option.some.inj h
      have hlength := (List.isPrefixOf_iff_prefix.mp hhere).length_le
      refine ⟨List.drop_suffix _ _, ?_⟩
      rw [List.length_drop]
      omega
    · obtain ⟨hsuffix, hlength⟩ := ih h
      refine ⟨hsuffix.trans (List.suffix_cons b text), ?_⟩
      rw [List.length_cons]
      omega

/-- A needle that fits into a text is at the front of a longer one only where it is at the
front of the text. -/
theorem isPrefixOf_append (hlength : needle.length ≤ text.length) :
    needle.isPrefixOf (text ++ more) = needle.isPrefixOf text := by
  rw [Bool.eq_iff_iff, List.isPrefixOf_iff_prefix, List.isPrefixOf_iff_prefix]
  constructor
  · intro h
    exact List.prefix_of_prefix_length_le h (List.prefix_append text more) hlength
  · intro h
    exact h.trans (List.prefix_append text more)

theorem afterFirst_append (h : afterFirst needle text = some rest) (more : Bytes) :
    afterFirst needle (text ++ more) = some (rest ++ more) := by
  have hfits := (afterFirst_suffix h).2
  induction text with
  | nil =>
    simp only [afterFirst] at h
    split at h
    · rename_i hneedle
      subst hneedle
      obtain rfl := Option.some.inj h
      cases more <;> rfl
    · cases h
  | cons b text ih =>
    have hsame : needle.isPrefixOf (b :: (text ++ more)) = needle.isPrefixOf (b :: text) :=
      @isPrefixOf_append needle (b :: text) more (by omega)
    simp only [afterFirst, List.cons_append, hsame] at h ⊢
    split at h
    · rename_i hhere
      rw [if_pos hhere]
      obtain rfl := Option.some.inj h
      have hlength := (List.isPrefixOf_iff_prefix.mp hhere).length_le
      have hdrop : ((b :: text) ++ more).drop needle.length = (b :: text).drop needle.length ++ more :=
        List.drop_append_of_le_length hlength
      exact congrArg some hdrop
    · rename_i hlater
      rw [if_neg hlater]
      exact ih h (afterFirst_suffix h).2

/-- A needle that a text does not hold ends behind it. -/
theorem afterFirst_beyond (hneedle : needle ≠ []) (hnone : afterFirst needle text = none)
    (h : afterFirst needle (text ++ more) = some rest) :
    rest <:+ more ∧ rest.length < more.length := by
  have hpos : 0 < needle.length := List.length_pos_of_ne_nil hneedle
  induction text with
  | nil =>
    obtain ⟨hsuffix, hlength⟩ := afterFirst_suffix h
    rw [List.nil_append] at hsuffix hlength
    exact ⟨hsuffix, by omega⟩
  | cons b text ih =>
    simp only [afterFirst, List.cons_append] at hnone h
    split at hnone
    · cases hnone
    rename_i hhere
    split at h
    · rename_i hlonger
      obtain rfl := Option.some.inj h
      have hprefix := (List.isPrefixOf_iff_prefix.mp hlonger).length_le
      have hcross : (b :: text).length < needle.length := by
        by_contra hfits
        have hsame := @isPrefixOf_append needle (b :: text) more (by omega)
        exact hhere (hsame ▸ hlonger)
      have hdrop : (b :: (text ++ more)).drop needle.length =
          more.drop (needle.length - (b :: text).length) := by
        rw [← List.cons_append, List.drop_append, List.drop_eq_nil_of_le (by omega)]
        rfl
      simp only [List.length_cons, List.length_append] at hprefix hcross
      rw [hdrop, List.length_drop, List.length_cons]
      exact ⟨List.drop_suffix _ _, by omega⟩
    · exact ih hnone h

theorem afterFirst_skip {b : UInt8} (hclean : b ∉ text) (more : Bytes) :
    afterFirst [b] (text ++ more) = afterFirst [b] more := by
  induction text with
  | nil => rfl
  | cons c text ih =>
    rw [List.mem_cons, not_or] at hclean
    have hskip : ([b] : Bytes).isPrefixOf (c :: (text ++ more)) = false := by
      simp [List.isPrefixOf, hclean.1]
    rw [List.cons_append, afterFirst, hskip, if_neg Bool.false_ne_true]
    exact ih hclean.2

theorem afterFirst_byte (b : UInt8) (rest : Bytes) : afterFirst [b] (b :: rest) = some rest := by
  simp [afterFirst, List.isPrefixOf]

/-- A byte is found only behind what does not hold it. -/
theorem afterFirst_behind {b : UInt8} {front tail : Bytes} (hclean : b ∉ front)
    (hsuffix : text <:+ front ++ tail) (h : afterFirst [b] text = some rest) : rest <:+ tail := by
  rcases Nat.lt_or_ge tail.length text.length with hlong | hshort
  · obtain ⟨kept, rfl⟩ :=
      List.suffix_of_suffix_length_le (List.suffix_append front tail) hsuffix (by omega)
    obtain ⟨dropped, hsplit⟩ := hsuffix
    rw [← List.append_assoc] at hsplit
    have hfront : dropped ++ kept = front := List.append_cancel_right hsplit
    have hkept : b ∉ kept := fun hmem => hclean (hfront ▸ List.mem_append_right dropped hmem)
    rw [afterFirst_skip hkept] at h
    exact (afterFirst_suffix h).1
  · have hinside := List.suffix_of_suffix_length_le hsuffix (List.suffix_append front tail) hshort
    exact (afterFirst_suffix h).1.trans hinside

end Search

section Scan
variable {s text rest : Bytes}

@[simp] theorem scanString_quote (rest : Bytes) : scanString (0x22 :: rest) = some [] := by
  rw [scanString.eq_def]
  rfl

theorem scanString_plain {b : UInt8} (hq : b ≠ 0x22) (hb : b ≠ 0x5c) (rest : Bytes) :
    scanString (b :: rest) = (scanString rest).map (b :: ·) := by
  rw [scanString.eq_def]
  simp [hq, hb]

theorem scanString_escape {b e : UInt8} (h : unescape e = some b) (rest : Bytes) :
    scanString (0x5c :: e :: rest) = (scanString rest).map (b :: ·) := by
  rw [scanString.eq_def]
  simp [h]

theorem scanString_bad {e : UInt8} (h : unescape e = none) (rest : Bytes) :
    scanString (0x5c :: e :: rest) = none := by
  rw [scanString.eq_def]
  simp [h]

theorem unescape_of_mem {b e : UInt8} (h : (b, e) ∈ escapes) : unescape e = some b := by
  simp only [escapes, List.mem_cons, Prod.mk.injEq, List.not_mem_nil, or_false] at h
  rcases h with ⟨rfl, rfl⟩ | ⟨rfl, rfl⟩ | ⟨rfl, rfl⟩ | ⟨rfl, rfl⟩ | ⟨rfl, rfl⟩ <;> rfl

/-- The scan reads a string of the grammar and stops at its closing quote. -/
theorem scanString_characters (h : Characters s text) (rest : Bytes) :
    scanString (text ++ 0x22 :: rest) = some s := by
  induction h with
  | nil => exact scanString_quote rest
  | plain low nq nb h ih =>
    rw [List.cons_append, scanString_plain nq nb, ih]
    rfl
  | escaped h h' ih =>
    rw [List.cons_append, List.cons_append, backslash, scanString_escape (unescape_of_mem h), ih]
    rfl

theorem scanString_length (h : scanString text = some s) : s.length ≤ text.length := by
  induction text using scanString.induct generalizing s with
  | case1 => cases h
  | case2 rest =>
    rw [scanString_quote] at h
    obtain rfl := Option.some.inj h
    exact Nat.zero_le _
  | case3 => cases h
  | case4 e rest hnone =>
    rw [scanString_bad hnone] at h
    cases h
  | case5 e rest c hescape _ ih =>
    rw [scanString_escape hescape] at h
    obtain ⟨tail, htail, rfl⟩ := Option.map_eq_some_iff.mp h
    have := ih htail
    simp only [List.length_cons]
    omega
  | case6 b rest hq hb ih =>
    rw [scanString_plain hq hb] at h
    obtain ⟨tail, htail, rfl⟩ := Option.map_eq_some_iff.mp h
    have := ih htail
    simp only [List.length_cons]
    omega

/-- No string reaches over a quote that no backslash stands before. -/
theorem scanString_stops {c : UInt8} {front : Bytes} (hc : c ≠ 0x5c)
    (h : scanString (front ++ c :: 0x22 :: rest) = some s) : s.length ≤ front.length + 1 := by
  induction front using scanString.induct generalizing s with
  | case1 =>
    by_cases hq : c = 0x22
    · rw [List.nil_append, hq, scanString_quote] at h
      obtain rfl := Option.some.inj h
      exact Nat.zero_le _
    · rw [List.nil_append, scanString_plain hq hc, scanString_quote] at h
      obtain rfl := Option.some.inj h
      exact Nat.le_refl 1
  | case2 front =>
    rw [List.cons_append, scanString_quote] at h
    obtain rfl := Option.some.inj h
    exact Nat.zero_le _
  | case3 =>
    cases hescape : unescape c with
    | none =>
      rw [List.cons_append, List.nil_append, scanString_bad hescape] at h
      cases h
    | some b =>
      rw [List.cons_append, List.nil_append, scanString_escape hescape, scanString_quote] at h
      obtain rfl := Option.some.inj h
      exact Nat.le_succ 1
  | case4 e front hnone =>
    rw [List.cons_append, List.cons_append, scanString_bad hnone] at h
    cases h
  | case5 e front b hescape _ ih =>
    rw [List.cons_append, List.cons_append, scanString_escape hescape] at h
    obtain ⟨tail, htail, rfl⟩ := Option.map_eq_some_iff.mp h
    have := ih htail
    simp only [List.length_cons]
    omega
  | case6 b front hq hb ih =>
    rw [List.cons_append, scanString_plain hq hb] at h
    obtain ⟨tail, htail, rfl⟩ := Option.map_eq_some_iff.mp h
    have := ih htail
    simp only [List.length_cons]
    omega

end Scan

section Literals
variable {text key after gap rest tail : Bytes} {b : UInt8}

theorem valueStart_bind (text key : Bytes) :
    valueStart text key = (afterFirst (quoted key) text).bind fun behindKey =>
      (afterFirst [0x3a] behindKey).map fun behindColon => behindColon.dropWhile isBlank := by
  have hquoted : quoted key = 0x22 :: key ++ [0x22] := rfl
  simp [valueStart, hquoted, Option.map_eq_bind]

theorem valueStart_eq {behind tail : Bytes} (hkey : afterFirst (quoted key) text = some behind)
    (hcolon : afterFirst [0x3a] behind = some tail) :
    valueStart text key = some (tail.dropWhile isBlank) := by
  rw [valueStart_bind, hkey, Option.bind_some, hcolon]
  rfl

theorem isBlank_iff : isBlank b = true ↔ IsSpace b := by
  simp [isBlank, IsSpace, or_assoc]

theorem dropWhile_spaces (h : Spaces gap) (hb : isBlank b = false) :
    (gap ++ b :: rest).dropWhile isBlank = b :: rest := by
  rw [List.dropWhile_append_of_pos fun c hc => isBlank_iff.mpr (h c hc),
    List.dropWhile_cons_of_neg (by simp [hb])]

theorem isDigit_iff : isDigit b = true ↔ IsDigit b := by
  simp [isDigit, IsDigit]

theorem takeWhile_digits {digits : Bytes} (h : ∀ b ∈ digits, IsDigit b)
    (hb : isDigit b = false) : (digits ++ b :: rest).takeWhile isDigit = digits := by
  rw [List.takeWhile_append_of_pos fun c hc => isDigit_iff.mpr (h c hc),
    List.takeWhile_cons_of_neg (by simp [hb]), List.append_nil]

theorem fromChars_other (hdigit : isDigit b = false) (hminus : b ≠ 0x2d) :
    fromChars (b :: rest) = none := by
  simp [fromChars, hdigit, hminus]

theorem fromChars_positive {digits : Bytes} (h : Digits digits)
    (hi : (magnitude digits : Int) < 2 ^ 63) (hb : isDigit b = false) :
    fromChars (digits ++ b :: rest) = some ((magnitude digits : Int), b :: rest) := by
  have hhead : (digits ++ b :: rest).head? ≠ some 0x2d := by
    obtain ⟨d, digits, rfl⟩ := List.exists_cons_of_ne_nil h.nonempty
    have hd := (h.all d List.mem_cons_self).1
    rw [List.cons_append, List.head?_cons]
    rintro ⟨rfl⟩
    exact absurd hd (by decide)
  have hrange : ¬ ((magnitude digits : Int) < -2 ^ 63 ∨ (magnitude digits : Int) ≥ 2 ^ 63) := by
    omega
  unfold fromChars
  simp only [hhead, if_false, takeWhile_digits h.all hb, List.drop_left]
  exact if_neg (not_or.mpr ⟨h.nonempty, hrange⟩)

theorem fromChars_negative {digits : Bytes} (h : Digits digits)
    (lo : -2 ^ 63 ≤ -(magnitude digits : Int)) (hb : isDigit b = false) :
    fromChars (0x2d :: digits ++ b :: rest) = some (-(magnitude digits : Int), b :: rest) := by
  have hrange : ¬ (-(magnitude digits : Int) < -2 ^ 63 ∨ -(magnitude digits : Int) ≥ 2 ^ 63) := by
    omega
  unfold fromChars
  simp only [List.cons_append, List.head?_cons, if_true, List.drop_succ_cons, List.drop_zero,
    takeWhile_digits h.all hb, List.drop_left]
  exact if_neg (not_or.mpr ⟨h.nonempty, hrange⟩)

theorem jsonString_string (h : valueStart text key = some (0x22 :: rest)) :
    jsonString text key = scanString rest := by
  simp [jsonString, h]

theorem jsonString_other (h : valueStart text key = some (b :: rest)) (hb : b ≠ 0x22) :
    jsonString text key = none := by
  simp [jsonString, h, hb]

theorem jsonInteger_none (h : valueStart text key = some tail) (hf : fromChars tail = none) :
    jsonInteger text key = none := by
  simp [jsonInteger, h, hf]

theorem jsonInteger_some {n : Int} (h : valueStart text key = some tail)
    (hf : fromChars tail = some (n, gap ++ b :: rest)) (hgap : Spaces gap)
    (hb : b = comma ∨ b = closeBrace) : jsonInteger text key = some n := by
  have hblank : isBlank b = false := by rcases hb with rfl | rfl <;> rfl
  have hmark : b = 0x2c ∨ b = 0x7d ∨ b = 0x5d := by
    rcases hb with rfl | rfl
    · exact .inl rfl
    · exact .inr (.inl rfl)
  unfold jsonInteger
  simp [h, hf, dropWhile_spaces hgap hblank, hmark]

/-- A bracket starts neither a string nor an integer. -/
theorem reads_bracket (h : valueStart text key = some (b :: rest)) (hb : b = 0x7b ∨ b = 0x5b) :
    jsonString text key = none ∧ jsonInteger text key = none := by
  rcases hb with rfl | rfl
  · exact ⟨jsonString_other h (by decide), jsonInteger_none h (fromChars_other rfl (by decide))⟩
  · exact ⟨jsonString_other h (by decide), jsonInteger_none h (fromChars_other rfl (by decide))⟩

theorem reads_integer {n : Int} {literal : Bytes} (h : IntegerText n literal) (hgap : Spaces gap)
    (hb : b = comma ∨ b = closeBrace)
    (hstart : valueStart text key = some (literal ++ (gap ++ b :: rest))) :
    jsonString text key = none ∧ jsonInteger text key = some n := by
  have hend : ∃ c tail, gap ++ b :: rest = c :: tail ∧ isDigit c = false := by
    cases gap with
    | nil => exact ⟨b, rest, rfl, by rcases hb with rfl | rfl <;> rfl⟩
    | cons c gap =>
      refine ⟨c, gap ++ b :: rest, rfl, ?_⟩
      rcases hgap c List.mem_cons_self with rfl | rfl | rfl | rfl <;> rfl
  obtain ⟨c, tail, htail, hc⟩ := hend
  cases h with
  | positive h hi =>
    have hnumber : fromChars (_ ++ c :: tail) = _ := fromChars_positive h hi hc
    rw [← htail] at hnumber
    refine ⟨?_, jsonInteger_some hstart hnumber hgap hb⟩
    obtain ⟨d, digits, rfl⟩ := List.exists_cons_of_ne_nil h.nonempty
    refine jsonString_other hstart ?_
    rintro rfl
    exact absurd (h.all 0x22 List.mem_cons_self).1 (by decide)
  | negative h lo =>
    have hnumber : fromChars (0x2d :: _ ++ c :: tail) = _ := fromChars_negative h lo hc
    rw [← htail] at hnumber
    exact ⟨jsonString_other hstart (by decide), jsonInteger_some hstart hnumber hgap hb⟩

/-- Where the value of a member is found, both extractors say what it is. -/
theorem reads_literal (v : Literal) (hgap : Spaces gap) (hb : b = comma ∨ b = closeBrace)
    (hstart : valueStart text key = some (v.text ++ (gap ++ b :: rest))) :
    Reads text key v.value := by
  obtain ⟨value, literal, hspelled⟩ := v
  dsimp only at hstart ⊢
  cases hspelled with
  | integer h => exact reads_integer h hgap hb hstart
  | string h =>
    obtain ⟨body, hbody, rfl⟩ := h
    have hquote : valueStart text key = some (0x22 :: (body ++ 0x22 :: (gap ++ b :: rest))) := by
      rw [hstart]
      simp [quote]
    exact ⟨(jsonString_string hquote).trans (scanString_characters hbody _),
      jsonInteger_none hquote (fromChars_other rfl (by decide))⟩
  | emptyObject h => exact reads_bracket hstart (.inl rfl)
  | object hdistinct h => exact reads_bracket hstart (.inl rfl)
  | emptyArray h => exact reads_bracket hstart (.inr rfl)
  | array h => exact reads_bracket hstart (.inr rfl)

theorem literal_head (v : Literal) : ∃ c tail, v.text = c :: tail ∧ isBlank c = false := by
  obtain ⟨value, literal, hspelled⟩ := v
  cases hspelled with
  | integer h =>
    cases h with
    | positive h hi =>
      obtain ⟨d, digits, rfl⟩ := List.exists_cons_of_ne_nil h.nonempty
      refine ⟨d, digits, rfl, ?_⟩
      have hd := (h.all d List.mem_cons_self).1
      by_contra hblank
      rcases isBlank_iff.mp (Bool.not_eq_false _ ▸ hblank) with rfl | rfl | rfl | rfl <;>
        exact absurd hd (by decide)
    | negative h lo => exact ⟨_, _, rfl, rfl⟩
  | string h =>
    obtain ⟨body, hbody, rfl⟩ := h
    exact ⟨_, _, rfl, rfl⟩
  | emptyObject h => exact ⟨_, _, rfl, rfl⟩
  | object hdistinct h => exact ⟨_, _, rfl, rfl⟩
  | emptyArray h => exact ⟨_, _, rfl, rfl⟩
  | array h => exact ⟨_, _, rfl, rfl⟩

end Literals

/-- Up to the member's colon, the key is found and no colon comes behind it. -/
def Found (s : Slot) : Prop :=
  ∃ behind, afterFirst (quoted s.key) s.before = some behind ∧ (0x3a : UInt8) ∉ behind

theorem reads_of_found {s : Slot} (h : Found s) (v : Literal) :
    Reads (s.fill v).text s.key v.value := by
  obtain ⟨behind, hkey, hcolon⟩ := h
  obtain ⟨gap, b, rest, hafter, hgap, hb⟩ := s.after_cases
  obtain ⟨c, tail, hliteral, hc⟩ := literal_head v
  apply reads_literal v hgap hb
  have hfound := afterFirst_append hkey (colon :: (s.label.space ++ (v.text ++ s.after)))
  rw [← s.fill_text] at hfound
  rw [valueStart_eq hfound ((afterFirst_skip hcolon _).trans (afterFirst_byte _ _)), hafter]
  rw [hliteral, List.cons_append, dropWhile_spaces s.label.hspace hc]

/-- A string of so many letters. -/
def letters (n : Nat) : Literal :=
  .plain (List.replicate n 0x61) fun b hb => by
    rw [List.eq_of_mem_replicate hb]
    decide

theorem letters_clean {space : Bytes} (hspace : Spaces space) (n : Nat) :
    (0x3a : UInt8) ∉ space ++ (letters n).text := by
  intro hmem
  rcases List.mem_append.mp hmem with hmem | hmem
  · rcases hspace _ hmem with h | h | h | h <;> cases h
  · simp [letters, Literal.plain, quote, List.mem_replicate] at hmem

theorem jsonString_some {text key value : Bytes} (h : jsonString text key = some value) :
    ∃ behind tail t, afterFirst (quoted key) text = some behind ∧
      afterFirst [0x3a] behind = some tail ∧ tail.dropWhile isBlank = 0x22 :: t ∧
      scanString t = some value := by
  cases hkey : afterFirst (quoted key) text with
  | none =>
    simp [jsonString, valueStart_bind, hkey] at h
  | some behind =>
    cases hcolon : afterFirst [0x3a] behind with
    | none =>
      simp [jsonString, valueStart_bind, hkey, hcolon] at h
    | some tail =>
      have hstart := valueStart_eq hkey hcolon
      cases htail : tail.dropWhile isBlank with
      | nil => simp [jsonString, hstart, htail] at h
      | cons b t =>
        rw [htail] at hstart
        by_cases hb : b = 0x22
        · subst hb
          rw [jsonString_string hstart] at h
          exact ⟨behind, tail, t, rfl, hcolon, htail, h⟩
        · rw [jsonString_other hstart hb] at h
          cases h

/-- The extractor that stops at a colon before the member's own reads no longer string than
the text up to the value. -/
theorem early_length {front space rest t value : Bytes} (hspace : Spaces space)
    (ht : (front ++ colon :: (space ++ 0x22 :: rest)).dropWhile isBlank = 0x22 :: t)
    (hscan : scanString t = some value) : value.length ≤ front.length + space.length + 1 := by
  have hdrop : (front ++ colon :: (space ++ 0x22 :: rest)).dropWhile isBlank =
      front.dropWhile isBlank ++ colon :: (space ++ 0x22 :: rest) := by
    have hcolon : (colon :: (space ++ 0x22 :: rest)).dropWhile isBlank =
        colon :: (space ++ 0x22 :: rest) := List.dropWhile_cons_of_neg (by decide)
    rw [List.dropWhile_append, hcolon]
    split
    · rename_i hempty
      rw [List.isEmpty_iff.mp hempty, List.nil_append]
    · rfl
  have hshorter := (List.dropWhile_suffix (l := front) isBlank).length_le
  rw [hdrop] at ht
  cases hfront : front.dropWhile isBlank with
  | nil =>
    rw [hfront] at ht
    cases ht
  | cons b kept =>
    rw [hfront] at ht hshorter
    rw [List.cons_append] at ht
    obtain ⟨rfl, rfl⟩ := List.cons.inj ht
    -- what stands before the opening quote is the colon or a blank, never a backslash
    obtain ⟨before, c, hlast, hc⟩ : ∃ before c, colon :: space = before ++ [c] ∧ c ≠ 0x5c := by
      rcases List.eq_nil_or_concat space with rfl | ⟨space, c, rfl⟩
      · exact ⟨[], colon, rfl, by decide⟩
      · refine ⟨colon :: space, c, by simp, ?_⟩
        rintro rfl
        rcases hspace 0x5c (by simp) with h | h | h | h <;> cases h
    have hsplit : kept ++ colon :: (space ++ 0x22 :: rest) =
        (kept ++ before) ++ c :: 0x22 :: rest := by
      rw [← List.cons_append, hlast]
      simp
    have hlength := congrArg List.length hlast
    have hstops := scanString_stops hc (hsplit ▸ hscan)
    simp only [List.length_append, List.length_cons, List.length_nil] at hstops hlength hshorter
    omega

theorem found_of_reads {s : Slot} (h : ∀ v : Literal, Reads (s.fill v).text s.key v.value) :
    Found s := by
  by_contra hnot
  obtain ⟨n, hn⟩ : ∃ n, n = s.before.length + s.label.space.length + s.after.length + 2 := ⟨_, rfl⟩
  obtain ⟨behind, tail, t, hkey, hcolon, ht, hscan⟩ := jsonString_some (h (letters n)).1
  rw [s.fill_text] at hkey
  have hread := (List.dropWhile_suffix (l := tail) isBlank).length_le
  rw [ht, List.length_cons] at hread
  cases hbefore : afterFirst (quoted s.key) s.before with
  | none =>
    -- the key is found behind the colon, so at most the rest of the document is read
    obtain ⟨hsuffix, hshort⟩ := afterFirst_beyond (by simp [quoted]) hbefore hkey
    have hbehind : behind <:+ s.label.space ++ (letters n).text ++ s.after := by
      rcases List.suffix_cons_iff.mp hsuffix with rfl | hsuffix
      · exact absurd hshort (lt_irrefl _)
      · rwa [List.append_assoc]
    have htail := (afterFirst_behind (letters_clean s.label.hspace n) hbehind hcolon).length_le
    have hlength := scanString_length hscan
    rw [List.length_replicate] at hlength
    omega
  | some inside =>
    -- the key is found before, and a colon before the member's own
    have hinside := afterFirst_append hbefore
      (colon :: (s.label.space ++ ((letters n).text ++ s.after)))
    obtain rfl := Option.some.inj (hkey.symm.trans hinside)
    have hmem : (0x3a : UInt8) ∈ inside := by
      by_contra hclean
      exact hnot ⟨inside, hbefore, hclean⟩
    obtain ⟨front, rest, rfl, hfront⟩ := List.eq_append_cons_of_mem hmem
    have hlength := (afterFirst_suffix hbefore).1.length_le
    rw [List.append_assoc, afterFirst_skip hfront, List.cons_append, afterFirst_byte] at hcolon
    obtain rfl := Option.some.inj hcolon
    have hearly := early_length s.label.hspace ht hscan
    rw [List.length_replicate] at hearly
    simp only [List.length_append, List.length_cons] at hlength
    omega

/-- The extractors read a member right, whatever its value, exactly where the first occurrence
of the quoted key before the value is followed by no other colon than the member's own. Every
member of a document stands in such a place. -/
theorem fields_right_iff (s : Slot) :
    ((∀ v : Literal, Reads (s.fill v).text s.key v.value) ↔ Found s) ∧
      ∀ (d : Document) (m : Label × Literal), m ∈ d.members →
        ∃ place : Slot, place.label = m.1 ∧ place.fill m.2 = d :=
  ⟨⟨found_of_reads, reads_of_found⟩, fun d _ hm => d.exists_slot hm⟩

theorem lower_plain {word : Bytes} (h : word.all (fun b => 0x61 ≤ b) = true) :
    ∀ b ∈ word, 0x20 ≤ b ∧ b ≠ quote ∧ b ≠ backslash := by
  intro b hb
  have hlow : 0x61 ≤ b := by simpa using List.all_eq_true.mp h b hb
  refine ⟨UInt8.le_trans (by decide : (0x20 : UInt8) ≤ 0x61) hlow, ?_, ?_⟩
  · rintro rfl
    exact absurd hlow (by decide)
  · rintro rfl
    exact absurd hlow (by decide)

/-- A message whose mode names the key that is asked for. -/
def misleading : Document where
  lead := []
  members := [
    (.tight (.plain (ascii "mode") (lower_plain rfl)), .plain (ascii "type") (lower_plain rfl)),
    (.tight (.plain (ascii "code") (lower_plain rfl)), .plain (ascii "auth") (lower_plain rfl)),
    (.tight (.plain (ascii "type") (lower_plain rfl)), .plain (ascii "hello") (lower_plain rfl))]
  trail := []
  hlead := List.forall_mem_nil _
  htrail := List.forall_mem_nil _
  distinct := by decide +kernel

theorem value_read_as_key : misleading.text =
      ascii "\x7b\"mode\":\"type\",\"code\":\"auth\",\"type\":\"hello\"\x7d" ∧
    jsonString misleading.text (ascii "type") = some (ascii "auth") ∧
    ¬ ∀ (d : Document) (m : Label × Literal), m ∈ d.members →
      Reads d.text m.1.key m.2.value := by
  have hread : jsonString misleading.text (ascii "type") = some (ascii "auth") := by decide +kernel
  refine ⟨by decide +kernel, hread, ?_⟩
  intro h
  have htype := (h misleading
    (.tight (.plain (ascii "type") (lower_plain rfl)), .plain (ascii "hello") (lower_plain rfl))
    (by simp [misleading])).1
  have hsame : some (ascii "auth") = some (ascii "hello") := hread.symm.trans htype
  exact absurd hsame (by decide)

end HarmonyScreen.Proofs.JsonFields
