import HarmonyScreen.Extension.ProofMessages

namespace HarmonyScreen.Proofs.ProofMessages
open Receiver
open Extension
open Extension.DirectProtocol

/-- The fields of an authentication, with the numbers of the wire. -/
structure AuthTuple where
  senderId : Bytes
  deviceId : Bytes
  sourceEpoch : UInt32
  nonce : Bytes
  width : UInt32
  height : UInt32
  maxFps : UInt32
  deriving DecidableEq, Repr

/-- The challenge of the script with the codec and its format by default. -/
def AuthTuple.challenge (a : AuthTuple) : AuthChallenge :=
  { senderId := a.senderId
    deviceId := a.deviceId
    sourceEpoch := .integer a.sourceEpoch.toNat
    nonce := a.nonce
    width := .integer a.width.toNat
    height := .integer a.height.toNat
    maxFps := .integer a.maxFps.toNat }

def AuthTuple.contract (a : AuthTuple) : Protocol.MediaContract :=
  ⟨a.width.toNat, a.height.toNat, a.maxFps.toNat⟩

def nativeAuth (a : AuthTuple) : Bytes :=
  Protocol.authProofMessage a.senderId a.deviceId a.sourceEpoch.toNat a.nonce a.contract

def nativePair (p : PairChallenge) : Bytes :=
  Protocol.pairProofMessage p.proofMode p.sessionId p.senderId p.nonce p.deviceId

/-- The lines of a message. -/
def pairLines (p : PairChallenge) : List Bytes :=
  [ascii "HWC6-PAIR-PROOF", p.proofMode, p.sessionId, p.senderId, p.nonce, p.deviceId]

def authLines (a : AuthTuple) : List Bytes :=
  [ascii "HWC6-AUTH-PROOF", a.senderId, a.deviceId, Protocol.decimal a.sourceEpoch.toNat, a.nonce,
    ascii "video/avc", ascii "annexb", Protocol.decimal a.width.toNat,
    Protocol.decimal a.height.toNat, Protocol.decimal a.maxFps.toNat]

/-- Lines without the separator are read back from their message. -/
theorem lines_inj {lines others : List Bytes} (hl : lines ≠ []) (ho : others ≠ [])
    (hclean : ∀ line ∈ lines, (0x0a : UInt8) ∉ line)
    (hother : ∀ line ∈ others, (0x0a : UInt8) ∉ line)
    (h : [(0x0a : UInt8)].intercalate lines = [0x0a].intercalate others) : lines = others := by
  rw [← List.splitOn_intercalate 0x0a hclean hl, h, List.splitOn_intercalate 0x0a hother ho]

theorem digit_toNat {n : Nat} {c : Char} (h : c ∈ Nat.toDigits 10 n) :
    48 ≤ c.toNat ∧ c.toNat ≤ 57 := by
  have hdigit := Nat.isDigit_of_mem_toDigits (by decide) (by decide) h
  simp only [Char.isDigit, Bool.and_eq_true, decide_eq_true_eq] at hdigit
  exact ⟨hdigit.1, hdigit.2⟩

theorem decimal_chars (n : Nat) :
    (Protocol.decimal n).map (fun b => Char.ofNat b.toNat) = Nat.toDigits 10 n := by
  rw [Protocol.decimal, List.map_map]
  calc (Nat.toDigits 10 n).map _ = (Nat.toDigits 10 n).map id := by
        apply List.map_congr_left
        intro c hc
        have hc := digit_toNat hc
        have hbyte : c.toNat.toUInt8.toNat = c.toNat := Nat.mod_eq_of_lt (by omega)
        simp [hbyte]
    _ = Nat.toDigits 10 n := List.map_id _

theorem decimal_inj {m n : Nat} (h : Protocol.decimal m = Protocol.decimal n) : m = n := by
  have hdigits : Nat.toDigits 10 m = Nat.toDigits 10 n := by
    rw [← decimal_chars, h, decimal_chars]
  rw [← Nat.ofDigitChars_ten_toDigits (n := m), hdigits, Nat.ofDigitChars_ten_toDigits]

theorem decimal_clean (n : Nat) : (0x0a : UInt8) ∉ Protocol.decimal n := by
  intro h
  obtain ⟨c, hc, heq⟩ := List.mem_map.mp h
  have hc := digit_toNat hc
  have hbyte : c.toNat.toUInt8.toNat = c.toNat := Nat.mod_eq_of_lt (by omega)
  have hten : c.toNat = 10 := by
    rw [← hbyte, heq]
    rfl
  omega

theorem hex_clean {value : Bytes} {size : Nat} (h : Protocol.hex value size = true) :
    (0x0a : UInt8) ∉ value := by
  simp only [Protocol.hex, Bool.and_eq_true] at h
  intro hmem
  exact absurd (List.all_eq_true.mp h.2 _ hmem) (by decide)

theorem senderId_clean {value : Bytes} (h : Protocol.senderIdValid value = true) :
    (0x0a : UInt8) ∉ value := by
  simp only [Protocol.senderIdValid, Bool.and_eq_true] at h
  intro hmem
  exact absurd (List.all_eq_true.mp h.2 _ hmem) (by decide)

theorem tests_eq : (∀ n v, hexTest n v = Protocol.hex v n) ∧
    ∀ v, senderIdTest v = Protocol.senderIdValid v := ⟨fun _ _ => rfl, fun _ => rfl⟩

theorem pair_message (p : PairChallenge) :
    ascii "HWC6-PAIR-PROOF\n" ++ p.proofMode ++ ascii "\n" ++ p.sessionId ++ ascii "\n" ++
        p.senderId ++ ascii "\n" ++ p.nonce ++ ascii "\n" ++ p.deviceId =
      [0x0a].intercalate (pairLines p) := by
  have htitle : ascii "HWC6-PAIR-PROOF\n" = ascii "HWC6-PAIR-PROOF" ++ [0x0a] := by decide
  have hnewline : ascii "\n" = [0x0a] := by decide
  rw [htitle, hnewline]
  simp [pairLines, List.intercalate, List.intersperse]

/-- Both sides refuse a pairing, or both give the same clean lines. -/
theorem pair_agrees (p : PairChallenge) :
    ((∃ text, createPairProofMessage p = .error text) ∧ nativePair p = []) ∨
      (createPairProofMessage p = .ok (nativePair p) ∧
        nativePair p = [0x0a].intercalate (pairLines p) ∧
          ∀ line ∈ pairLines p, (0x0a : UInt8) ∉ line) := by
  unfold createPairProofMessage nativePair Protocol.pairProofMessage
  simp only [tests_eq.1, tests_eq.2, isProofNonce, directProofNonceBytes,
    Protocol.decodeLowerHex_isNone, pair_message]
  split
  · exact .inl ⟨⟨_, rfl⟩, rfl⟩
  · rename_i htaken
    simp only [not_or, Bool.not_eq_true', Bool.not_eq_false, not_not] at htaken
    obtain ⟨hmode, hsession, hsender, hnonce, hdevice⟩ := htaken
    refine .inr ⟨rfl, rfl, ?_⟩
    intro line hline
    simp only [pairLines, List.mem_cons, List.not_mem_nil, or_false] at hline
    rcases hline with rfl | rfl | rfl | rfl | rfl | rfl
    · decide
    · rw [hmode]
      decide
    · exact hex_clean hsession
    · exact senderId_clean hsender
    · exact hex_clean hnonce
    · exact hex_clean hdevice

theorem auth_message (a : AuthTuple) :
    ascii "HWC6-AUTH-PROOF\n" ++ a.senderId ++ ascii "\n" ++ a.deviceId ++ ascii "\n" ++
        Protocol.decimal a.sourceEpoch.toNat ++ ascii "\n" ++ a.nonce ++
        ascii "\nvideo/avc\nannexb\n" ++ Protocol.decimal a.contract.width ++ ascii "\n" ++
        Protocol.decimal a.contract.height ++ ascii "\n" ++ Protocol.decimal a.contract.maxFps =
      [0x0a].intercalate (authLines a) := by
  have htitle : ascii "HWC6-AUTH-PROOF\n" = ascii "HWC6-AUTH-PROOF" ++ [0x0a] := by decide
  have hnewline : ascii "\n" = [0x0a] := by decide
  have hcodec : ascii "\nvideo/avc\nannexb\n" =
      [0x0a] ++ ascii "video/avc" ++ [0x0a] ++ ascii "annexb" ++ [0x0a] := by decide
  rw [htitle, hnewline, hcodec]
  simp [authLines, AuthTuple.contract, List.intercalate, List.intersperse]

/-- On integers the two contract checks are one. -/
theorem contract_refused_iff (c : Protocol.MediaContract) :
    ((c.width : Int) ≤ 0 ∨ (c.height : Int) ≤ 0 ∨ (c.width : Int) % 2 ≠ 0 ∨
      (c.height : Int) % 2 ≠ 0 ∨ max (c.width : Int) c.height > VideoContract.videoMaxLongEdge ∨
      min (c.width : Int) c.height > VideoContract.videoMaxShortEdge ∨
      (c.width : Int) * c.height > VideoContract.videoMaxPixels ∨
      (c.maxFps : Int) ≤ 0 ∨ (c.maxFps : Int) > VideoContract.videoMaxFps) ↔
      ¬ Protocol.isValidMediaContract c = true := by
  have hproduct : (c.width : Int) * c.height = ((c.width * c.height : Nat) : Int) := by
    push_cast
    rfl
  rw [hproduct]
  unfold Protocol.isValidMediaContract VideoContract.videoMaxLongEdge
    VideoContract.videoMaxShortEdge VideoContract.videoMaxPixels VideoContract.videoMaxFps
  rw [Bool.if_false_left, Bool.and_eq_true, Bool.not_eq_true', decide_eq_false_iff_not,
    decide_eq_true_iff]
  omega

theorem validateMediaContract_eq (c : Protocol.MediaContract) :
    VideoContract.validateMediaContract
        ⟨.integer c.width, .integer c.height, .integer c.maxFps⟩ =
      if Protocol.isValidMediaContract c then
        .ok ⟨.integer c.width, .integer c.height, .integer c.maxFps⟩
      else .error "动态视频合同超出可信媒体边界" := by
  unfold VideoContract.validateMediaContract
  by_cases h : Protocol.isValidMediaContract c = true
  · rw [if_pos h]
    exact if_neg fun hrefused => (contract_refused_iff c).mp hrefused h
  · rw [if_neg h]
    exact if_pos ((contract_refused_iff c).mpr h)

theorem epoch_refused_iff (epoch : UInt32) :
    ((!(Number.integer epoch.toNat).isWithin uint32Max) = true ∨
      (Number.integer epoch.toNat).toInt ≤ 0) ↔ epoch.toNat = 0 := by
  have hbound := epoch.toNat_lt
  have hwithin : (Number.integer epoch.toNat).isWithin uint32Max = true :=
    Number.isWithin_iff.mpr ⟨epoch.toNat, rfl, by simp only [uint32Max]; omega⟩
  rw [hwithin]
  simp [Number.toInt]

theorem string_integer (n : Nat) : (Number.integer n).string = Protocol.decimal n := by
  have hsign : ¬ (n : Int) < 0 := by omega
  simp [Number.string, Number.toInt, hsign]

/-- What an authentication has to satisfy on either side. -/
def AuthTuple.Valid (a : AuthTuple) : Prop :=
  Protocol.senderIdValid a.senderId = true ∧ Protocol.hex a.deviceId 32 = true ∧
    a.sourceEpoch.toNat ≠ 0 ∧ Protocol.hex a.nonce 64 = true ∧
    Protocol.isValidMediaContract a.contract = true

theorem auth_accepted {a : AuthTuple} (h : a.Valid) :
    createAuthProofMessage a.challenge = .ok ([0x0a].intercalate (authLines a)) ∧
      nativeAuth a = [0x0a].intercalate (authLines a) := by
  obtain ⟨hsender, hdevice, hepoch, hnonce, hvalid⟩ := h
  constructor
  · have hcontract : VideoContract.validateMediaContract
        ⟨a.challenge.width, a.challenge.height, a.challenge.maxFps⟩ = _ :=
      validateMediaContract_eq a.contract
    have hsourceEpoch := mt (epoch_refused_iff a.sourceEpoch).mp hepoch
    unfold createAuthProofMessage
    rw [hcontract, if_pos hvalid]
    dsimp only
    rw [if_neg]
    · simp only [string_integer]
      rfl
    · simp only [tests_eq.1, tests_eq.2, isProofNonce, directProofNonceBytes, not_or]
      rw [not_or] at hsourceEpoch
      exact ⟨by simpa [AuthTuple.challenge] using hsender,
        by simpa [AuthTuple.challenge] using hdevice, hsourceEpoch.1, hsourceEpoch.2,
        by simpa [AuthTuple.challenge] using hnonce, not_not.mpr rfl, not_not.mpr rfl⟩
  · unfold nativeAuth Protocol.authProofMessage
    rw [Protocol.decodeLowerHex_isNone, Protocol.decodeLowerHex_isNone, auth_message, if_neg]
    simp [hsender, hdevice, hepoch, hnonce, hvalid]

theorem auth_refused {a : AuthTuple} (h : ¬ a.Valid) :
    createAuthProofMessage a.challenge = .error "鉴权挑战字段无效" ∧ nativeAuth a = [] := by
  constructor
  · have hcontract : VideoContract.validateMediaContract
        ⟨a.challenge.width, a.challenge.height, a.challenge.maxFps⟩ = _ :=
      validateMediaContract_eq a.contract
    unfold createAuthProofMessage
    rw [hcontract]
    by_cases hvalid : Protocol.isValidMediaContract a.contract = true
    · rw [if_pos hvalid]
      dsimp only
      rw [if_pos]
      by_contra htaken
      simp only [tests_eq.1, tests_eq.2, isProofNonce, directProofNonceBytes, not_or] at htaken
      obtain ⟨hsender, hdevice, hepoch, hpositive, hnonce, -⟩ := htaken
      have hsourceEpoch := mt (epoch_refused_iff a.sourceEpoch).mpr
        (not_or.mpr ⟨hepoch, hpositive⟩)
      exact h ⟨by simpa [AuthTuple.challenge] using hsender,
        by simpa [AuthTuple.challenge] using hdevice, hsourceEpoch,
        by simpa [AuthTuple.challenge] using hnonce, hvalid⟩
    · rw [if_neg hvalid]
  · unfold nativeAuth Protocol.authProofMessage
    rw [Protocol.decodeLowerHex_isNone, Protocol.decodeLowerHex_isNone, if_pos]
    by_contra htaken
    simp only [not_or, Bool.not_eq_true', Bool.not_eq_false] at htaken
    exact h htaken

theorem authLines_clean {a : AuthTuple} (h : a.Valid) :
    ∀ line ∈ authLines a, (0x0a : UInt8) ∉ line := by
  obtain ⟨hsender, hdevice, -, hnonce, -⟩ := h
  intro line hline
  simp only [authLines, List.mem_cons, List.not_mem_nil, or_false] at hline
  rcases hline with rfl | rfl | rfl | rfl | rfl | rfl | rfl | rfl | rfl | rfl
  · decide
  · exact senderId_clean hsender
  · exact hex_clean hdevice
  · exact decimal_clean _
  · exact hex_clean hnonce
  · decide
  · decide
  · exact decimal_clean _
  · exact decimal_clean _
  · exact decimal_clean _

/-- Both sides refuse an authentication, or both give the same clean lines. -/
theorem auth_agrees (a : AuthTuple) :
    ((∃ text, createAuthProofMessage a.challenge = .error text) ∧ nativeAuth a = []) ∨
      (createAuthProofMessage a.challenge = .ok (nativeAuth a) ∧
        nativeAuth a = [0x0a].intercalate (authLines a) ∧
          ∀ line ∈ authLines a, (0x0a : UInt8) ∉ line) := by
  by_cases h : a.Valid
  · obtain ⟨hscript, hnative⟩ := auth_accepted h
    exact .inr ⟨hnative ▸ hscript, hnative, authLines_clean h⟩
  · obtain ⟨hscript, hnative⟩ := auth_refused h
    exact .inl ⟨⟨_, hscript⟩, hnative⟩

theorem message_ne_nil (title : Bytes) (lines : List Bytes) (h : title ≠ []) :
    [(0x0a : UInt8)].intercalate (title :: lines) ≠ [] := by
  cases title with
  | nil => exact absurd rfl h
  | cons b title => cases lines <;> simp [List.intercalate, List.intersperse]

theorem pair_accepted {p : PairChallenge} (h : nativePair p ≠ []) :
    nativePair p = [0x0a].intercalate (pairLines p) ∧
      ∀ line ∈ pairLines p, (0x0a : UInt8) ∉ line := by
  rcases pair_agrees p with ⟨-, hnone⟩ | ⟨-, hlines⟩
  · exact absurd hnone h
  · exact hlines

theorem auth_lines {a : AuthTuple} (h : nativeAuth a ≠ []) :
    nativeAuth a = [0x0a].intercalate (authLines a) ∧
      ∀ line ∈ authLines a, (0x0a : UInt8) ∉ line := by
  rcases auth_agrees a with ⟨-, hnone⟩ | ⟨-, hlines⟩
  · exact absurd hnone h
  · exact hlines

theorem pair_injective {p q : PairChallenge} (h : nativePair p ≠ [])
    (heq : nativePair p = nativePair q) : p = q := by
  obtain ⟨hp, hpclean⟩ := pair_accepted h
  obtain ⟨hq, hqclean⟩ := pair_accepted (heq ▸ h)
  have hlines : pairLines p = pairLines q :=
    lines_inj (by simp [pairLines]) (by simp [pairLines]) hpclean hqclean (hp ▸ hq ▸ heq)
  cases p
  cases q
  simpa [pairLines] using hlines

theorem auth_injective {a b : AuthTuple} (h : nativeAuth a ≠ [])
    (heq : nativeAuth a = nativeAuth b) : a = b := by
  obtain ⟨ha, haclean⟩ := auth_lines h
  obtain ⟨hb, hbclean⟩ := auth_lines (heq ▸ h)
  have hlines : authLines a = authLines b :=
    lines_inj (by simp [authLines]) (by simp [authLines]) haclean hbclean (ha ▸ hb ▸ heq)
  simp only [authLines, List.cons.injEq, true_and, and_true] at hlines
  obtain ⟨hsender, hdevice, hepoch, hnonce, hwidth, hheight, hfps⟩ := hlines
  cases a
  cases b
  simp only [AuthTuple.mk.injEq]
  exact ⟨hsender, hdevice, UInt32.toNat_inj.mp (decimal_inj hepoch), hnonce,
    UInt32.toNat_inj.mp (decimal_inj hwidth), UInt32.toNat_inj.mp (decimal_inj hheight),
    UInt32.toNat_inj.mp (decimal_inj hfps)⟩

/-- The first line tells the modes apart. -/
theorem modes_apart {p : PairChallenge} {a : AuthTuple} (h : nativePair p ≠ []) :
    nativePair p ≠ nativeAuth a := by
  intro heq
  obtain ⟨hp, hpclean⟩ := pair_accepted h
  obtain ⟨ha, haclean⟩ := auth_lines (heq ▸ h)
  have hlines : pairLines p = authLines a :=
    lines_inj (by simp [pairLines]) (by simp [authLines]) hpclean haclean (hp ▸ ha ▸ heq)
  have hlength := congrArg List.length hlines
  cases hlength

/-- The script accepts what the Receiver accepts and writes the same bytes, and a message
determines its mode and every field. -/
theorem proof_messages (p q : PairChallenge) (a b : AuthTuple) :
    ((∃ message, createPairProofMessage p = .ok message) ↔ nativePair p ≠ []) ∧
      ((∃ message, createAuthProofMessage a.challenge = .ok message) ↔ nativeAuth a ≠ []) ∧
      (∀ message, createPairProofMessage p = .ok message → message = nativePair p) ∧
      (∀ message, createAuthProofMessage a.challenge = .ok message → message = nativeAuth a) ∧
      (nativePair p ≠ [] → p ≠ q → nativePair p ≠ nativePair q) ∧
      (nativeAuth a ≠ [] → a ≠ b → nativeAuth a ≠ nativeAuth b) ∧
      (nativePair p ≠ [] → nativePair p ≠ nativeAuth a) := by
  have hpair : ((∃ message, createPairProofMessage p = .ok message) ↔ nativePair p ≠ []) ∧
      ∀ message, createPairProofMessage p = .ok message → message = nativePair p := by
    rcases pair_agrees p with ⟨⟨text, herror⟩, hnone⟩ | ⟨hok, hlines, -⟩
    · simp [herror, hnone]
    · have hmessage : nativePair p ≠ [] := hlines ▸ message_ne_nil _ _ (by decide)
      simp [hok, hmessage]
  have hauth : ((∃ message, createAuthProofMessage a.challenge = .ok message) ↔
        nativeAuth a ≠ []) ∧
      ∀ message, createAuthProofMessage a.challenge = .ok message → message = nativeAuth a := by
    rcases auth_agrees a with ⟨⟨text, herror⟩, hnone⟩ | ⟨hok, hlines, -⟩
    · simp [herror, hnone]
    · have hmessage : nativeAuth a ≠ [] := hlines ▸ message_ne_nil _ _ (by decide)
      simp [hok, hmessage]
  exact ⟨hpair.1, hauth.1, hpair.2, hauth.2, fun h hne heq => hne (pair_injective h heq),
    fun h hne heq => hne (auth_injective h heq), modes_apart⟩

end HarmonyScreen.Proofs.ProofMessages
