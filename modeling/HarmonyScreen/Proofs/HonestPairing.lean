import HarmonyScreen.Proofs.HonestAuthentication
import HarmonyScreen.Proofs.PairingMessages
import HarmonyScreen.Proofs.ReceiverHost

namespace HarmonyScreen.Proofs.HonestPairing
open Lib Program Receiver Receiver.Protocol Receiver.ReceiverSession Effects Link
open Extension Extension.DirectProtocol Extension.DirectClient FlatObjects HonestMessages
open PairingMessages Conversing Serving HonestAuthentication

/-- What the user has granted, and what was used up. -/
structure Grant where
  sessionId : Bytes
  token : Bytes
  shortCode : Bytes
  consumed : Bytes
  expiresAt : Int
  deriving DecidableEq

def grant (s : ReceiverSession) : Grant :=
  ⟨s.pendingSessionId, s.pendingToken, s.pendingShortCode, s.consumedSessionId, s.pairingExpiresAt⟩

def pairingView (s : ReceiverSession) : Trust × Grant := (trust s, grant s)

/-- What the other threads do while the user neither grants nor forgets anything. -/
def Bystanders (s t : ReceiverSession) : Prop := OtherEffect s t ∧ pairingView t = pairingView s

theorem pairingView_log (s : ReceiverSession) (log : List Receiver.Observation) :
    pairingView { s with log := log } = pairingView s := rfl

theorem bystanders_quiet {s t : ReceiverSession} (h : Bystanders s t) :
    pairingView t = pairingView s ∧ Quietly s t := ⟨h.2, (other_quiet h.1).2⟩

/-- The clock has not come to this time, and there are random bytes. -/
def InTime (expiresAt : Int) (e : External) : Prop :=
  milliseconds e.now < milliseconds expiresAt ∧ e.random.isSome = true

section Receiver
variable {q : PairTuple} {granted : Trust × Grant} {begun : Nat}
  {I : Trust × Grant → List Reply → Prop} {front : List Reply}

/-- Where the thread stands while it handles a request. -/
def At (v : Trust × Grant) (spoken : List Reply) : Trust × Grant → List Reply → List Reply → Prop :=
  fun v' spoken' missed => v' = v ∧ spoken' = spoken ∧ missed = []

/-- The pairing that a credential completes. -/
def pairedView (q : PairTuple) (granted : Trust × Grant) (credential : Bytes) : Trust × Grant :=
  (⟨q.deviceId, q.senderId, credential⟩, ⟨[], [], [], q.sessionId, granted.2.expiresAt⟩)

/-- What may have been said once a pairing was asked for, behind the replies before. -/
def Tells (q : PairTuple) (granted : Trust × Grant) (front : List Reply) (v : Trust × Grant)
    (spoken : List Reply) : Prop :=
  spoken = front ∨ ∃ credential, hex credential 64 = true ∧
    spoken = front ++ [.paired q.deviceId credential] ∧ v = pairedView q granted credential

/-- What the Receiver has come to with a final request. -/
def Ended (q : PairTuple) (granted : Trust × Grant) (front : List Reply) (handled : Handled)
    (v : Trust × Grant) (spoken missed : List Reply) : Prop :=
  handled = .returned false ∧ (missed ≠ [] ∨ Tells q granted front v spoken ∧ spoken ≠ front)

/-- The user has granted this pairing, by a code or by its token. -/
structure Granted (q : PairTuple) (granted : Trust × Grant) : Prop where
  deviceId : granted.1.deviceId = q.deviceId
  fresh : q.sessionId ≠ granted.2.consumed
  matched : granted.2.sessionId = q.sessionId ∧ granted.2.token = q.token ∨
    granted.2.shortCode = pairingShortCode q.token

theorem evaluateAuthorization_granted (hq : q.Valid) (hg : Granted q granted) {s : ReceiverSession}
    {e : External} (hview : pairingView s = granted) (he : InTime granted.2.expiresAt e) :
    s.evaluateAuthorization q.sessionId q.token e.now = .accepted := by
  subst hview
  obtain ⟨-, hfresh, hmatched⟩ := hg
  have hsession : q.sessionId ≠ [] := hex_ne_nil hq.sessionId
  have hlength : q.token.length = 64 := hex_length hq.token
  obtain ⟨-, hcode⟩ := short_codes_agree hq.token
  have hnonempty : pairingShortCode q.token ≠ [] := by
    intro hnil
    rw [hnil] at hcode
    cases hcode
  have hearly : ¬ milliseconds e.now ≥ milliseconds s.pairingExpiresAt := not_le.mpr he.1
  unfold evaluateAuthorization evaluatePairingAuthorization
  rw [if_neg (fun h => hfresh h.2), if_neg hearly]
  apply if_pos
  rcases hmatched with ⟨hpending, htoken⟩ | hshort
  · replace hpending : s.pendingSessionId = q.sessionId := hpending
    replace htoken : s.pendingToken = q.token := htoken
    rw [hpending, htoken]
    exact .inl ⟨hsession, rfl, (constantTimeEqual_iff _ _).mpr ⟨hlength, rfl⟩⟩
  · replace hshort : s.pendingShortCode = pairingShortCode q.token := hshort
    rw [hshort]
    exact .inr ⟨hnonempty, (constantTimeEqualSized_iff _ _ _).mpr ⟨hcode, rfl⟩⟩

theorem randomHex_hex {random : Option (Nat → UInt8)} (h : random.isSome = true) :
    hex (randomHex random 32) 64 = true := by
  obtain ⟨bytes, rfl⟩ := Option.isSome_iff_exists.mp h
  have hhex := lowerHex_hex ((List.range 32).map bytes)
  rwa [List.length_map, List.length_range] at hhex

/-- A final request for what was granted. -/
structure Final (q : PairTuple) (challenge : PairChallengeState) (json : Bytes) : Prop where
  valid : pairFinalValid challenge json = true
  token : Receiver.text json "token" = q.token
  sessionId : challenge.sessionId = q.sessionId
  senderId : challenge.senderId = q.senderId
  deviceId : challenge.deviceId = q.deviceId

theorem commitPairing_granted (hq : q.Valid) (hg : Granted q granted)
    {challenge : PairChallengeState} {json : Bytes} (hf : Final q challenge json)
    {s : ReceiverSession} {e : External} (hview : pairingView s = granted)
    (he : InTime granted.2.expiresAt e) :
    commitPairing challenge q.token e s = (.ok (randomHex e.random 32, s.grants),
      (s.note (.presented (s.attempt challenge q.token e))).acceptPairing challenge
        (randomHex e.random 32)) := by
  have haccepted := evaluateAuthorization_granted hq hg hview he
  have hcredential := hex_ne_nil (randomHex_hex he.2)
  have hdevice : s.deviceId = challenge.deviceId := by
    rw [hf.deviceId, ← hg.deviceId, ← hview]
    rfl
  have hgrants : (s.note (.presented (s.attempt challenge q.token e))).grants = s.grants := by
    simp [note, grants]
  have haccept : (s.note (.presented (s.attempt challenge q.token e))).evaluateAuthorization
      challenge.sessionId q.token e.now = .accepted := by
    rw [hf.sessionId]
    exact haccepted
  unfold commitPairing
  dsimp only
  rw [haccept]
  dsimp only
  rw [if_neg, hgrants]
  simp only [not_or, not_not]
  exact ⟨hcredential, hdevice⟩

/-- The final branch, whatever was said before. -/
theorem pairFinal_outline (hq : q.Valid) (hg : Granted q granted) {challenge : PairChallengeState}
    {json : Bytes} (hf : Final q challenge json)
    (hI : ∀ v spoken, Tells q granted front v spoken → I v spoken) :
    (serving begun pairingView (InTime granted.2.expiresAt) I).Outline ()
      (About begun pairingView (At granted front)) (pairFinal challenge json)
      fun handled => About begun pairingView (Ended q granted front handled) := by
  unfold pairFinal
  rw [hf.valid, hf.token, if_neg (by decide)]
  refine .bind (Q := fun result => About begun pairingView fun v spoken missed =>
    ∃ credential number, (hex credential 64 = true ∧ result = .ok (credential, number)) ∧
      At (pairedView q granted credential) front v spoken missed) ?_ fun result => ?_
  · refine silent_outline fun e s he _ hs => ?_
    obtain ⟨hview, hspoken, hmissed⟩ := hs
    rw [commitPairing_granted hq hg hf hview he]
    have hafter : pairingView ((s.note (.presented (s.attempt challenge q.token e))).acceptPairing
        challenge (randomHex e.random 32)) = pairedView q granted (randomHex e.random 32) := by
      have hdevice : s.deviceId = q.deviceId := by
        rw [← hg.deviceId, ← hview]
        rfl
      rw [← hview, pairedView, ← hf.senderId, ← hf.sessionId, ← hdevice]
      rfl
    refine ⟨⟨[.presented (s.attempt challenge q.token e), .paired _ challenge.sessionId],
      List.append_assoc _ _ _, by simp [isReply]⟩, ?_, _, _, ⟨randomHex_hex he.2, rfl⟩, hafter,
      hspoken, hmissed⟩
    rw [hafter, hspoken]
    exact hI _ _ (.inl rfl)
  · refine .any fun credential => .any fun number =>
      .when (P := About begun pairingView (At (pairedView q granted credential) front))
        fun hresult => ?_
    obtain ⟨hcredential, rfl⟩ := hresult
    dsimp only
    have htells : Tells q granted front (pairedView q granted credential)
        (front ++ [.paired q.deviceId credential]) := .inr ⟨credential, hcredential, rfl, rfl⟩
    rw [hf.deviceId]
    refine .bind (Q := fun _ => About begun pairingView fun v spoken missed =>
      missed ≠ [] ∨ Tells q granted front v spoken ∧ spoken ≠ front) ?_ fun _ => ?_
    · refine send_outline (by simp [isReply]) pairingView_log _ ?_ ?_
      · rintro v spoken missed - ⟨rfl, rfl, rfl⟩
        exact ⟨hI _ _ htells, .inr ⟨htells, by simp⟩⟩
      · rintro v spoken missed - -
        exact .inl (by simp)
    · refine .bind (quiet_outline ((setState_aside _ _ _ _).mono fun s t hs =>
        ⟨hs.core_field pairingView, .of_log hs.log⟩)) fun _ => .ret _ About.stable fun s _ hs => ?_
      exact ⟨rfl, hs⟩

end Receiver

section Scanned
variable {q : PairTuple} {granted : Trust × Grant} {begun : Nat}

/-- The proof that both ends compute. -/
def scannedProof (q : PairTuple) : Bytes :=
  Protocol.computePairProof q.token (ascii "qr") q.sessionId q.senderId q.nonce q.deviceId

def scannedReply (q : PairTuple) : Reply := pairProof q (scannedProof q)

def scannedState (q : PairTuple) : PairChallengeState :=
  ⟨q.sessionId, q.senderId, q.nonce, q.deviceId, false⟩

/-- What may have been said while these requests were taken up. -/
def SaysScanned (q : PairTuple) (granted : Trust × Grant) : Nat → Trust × Grant → List Reply → Prop
  | 0, v, spoken => v = granted ∧ spoken = []
  | 1, v, spoken => v = granted ∧ (spoken = [] ∨ spoken = [scannedReply q])
  | _, v, spoken => Tells q granted [scannedReply q] v spoken

/-- What the Receiver has come to with a request. -/
def ComesScanned (q : PairTuple) (granted : Trust × Grant) :
    Nat → Handled → Trust × Grant → List Reply → List Reply → Prop
  | 0, handled, _, spoken, missed => handled = .next .initial ∧ spoken = [] ∧ missed = []
  | 1, handled, _, spoken, missed =>
    handled = .next (.pairFinal (scannedState q)) ∧ spoken = [scannedReply q] ∧ missed = [] ∨
      handled = .returned false ∧ missed ≠ []
  | _, handled, v, spoken, missed => Ended q granted [scannedReply q] handled v spoken missed

/-- The discipline of the connection's thread with `n` requests taken up. -/
abbrev scanning (q : PairTuple) (granted : Trust × Grant) (begun n : Nat) :
    Discipline Unit ReceiverSession External :=
  serving begun pairingView (InTime granted.2.expiresAt) (SaysScanned q granted n)

def challengeText (q : PairTuple) : Bytes := (objectOf (pairChallengeMembers q)).stringify

def finalText (q : PairTuple) : Bytes := (objectOf (pairFinalMembers q)).stringify

theorem challenge_handled (hq : q.Valid) :
    ReceiverSession.handleMessage .initial ⟨.text, challengeText q⟩ =
      ReceiverSession.modify (fun s => s.note (.message ⟨.text, challengeText q⟩ s.source)) >>=
        fun _ => ReceiverSession.pairChallenge (challengeText q) := by
  have hcomposed := pairChallenge_composed hq
  have hshort : (challengeText q).length ≤ 2048 := hcomposed.short
  have htype := textIs_read hcomposed.flat "type" (ascii "pair_challenge")
    (by simp [pairChallengeMembers])
  have hprotocol : jsonInteger (challengeText q) (ascii "protocol") = some 6 :=
    hcomposed.flat.jsonInteger (by simp [pairChallengeMembers])
  unfold ReceiverSession.handleMessage
  congr 1
  funext _
  rw [if_neg (by simpa using hshort)]
  dsimp only
  rw [hprotocol, if_neg (by decide), challengeText, htype, htype, if_neg (by decide),
    if_pos (by decide)]

/-- The Receiver shows that it knows the token it has scanned. -/
theorem challenge_taken (hq : q.Valid) (hg : Granted q granted)
    (hproof : hex (scannedProof q) 64 = true)
    (hscanned : granted.2.sessionId = q.sessionId ∧ granted.2.token = q.token) :
    (scanning q granted begun 1).Outline () (About begun pairingView (At granted []))
      (ReceiverSession.handleMessage .initial ⟨.text, challengeText q⟩)
      fun handled => About begun pairingView (ComesScanned q granted 1 handled) := by
  have hflat := (pairChallenge_composed hq).flat
  rw [challenge_handled hq]
  refine (quiet_outline (message_quiet pairingView_log _)).bind fun _ => ?_
  unfold ReceiverSession.pairChallenge
  dsimp only
  rw [challengeText, textIs_read hflat "mode" (ascii "pair") (by simp [pairChallengeMembers]),
    text_read hflat "sessionId" q.sessionId (by simp [pairChallengeMembers]),
    text_read hflat "senderId" q.senderId (by simp [pairChallengeMembers]),
    text_read hflat "nonce" q.nonce (by simp [pairChallengeMembers]),
    if_neg (by simp [hq.sessionId, hq.senderId, hq.nonce])]
  refine .bind (Q := fun result => About begun pairingView fun v spoken missed =>
    result = (.ok q.token, q.deviceId) ∧ At granted [] v spoken missed) ?_ fun result =>
    .when (P := About begun pairingView (At granted [])) fun hresult => ?_
  · refine silent_outline fun e s he hI hs => ?_
    obtain ⟨hview, hspoken, hmissed⟩ := hs
    have hdevice : s.deviceId = q.deviceId := by
      rw [← hg.deviceId, ← hview]
      rfl
    have hpending : s.pendingSessionId = q.sessionId ∧ s.pendingToken = q.token := by
      rw [← hscanned.1, ← hscanned.2, ← hview]
      exact ⟨rfl, rfl⟩
    have hconsumed : q.sessionId ≠ s.consumedSessionId := by
      intro hbad
      apply hg.fresh
      rw [hbad, ← hview]
      rfl
    have hearly : ¬ milliseconds e.now ≥ milliseconds s.pairingExpiresAt := by
      have hexpires : granted.2.expiresAt = s.pairingExpiresAt := by
        rw [← hview]
        rfl
      rw [← hexpires]
      exact not_le.mpr he.1
    refine ⟨.of_log rfl, hI, Prod.ext ?_ hdevice, hview, hspoken, hmissed⟩
    rw [pairChallengeLocked, if_neg (fun h => hconsumed h.2), if_neg hearly, hpending.1, hpending.2]
    exact if_pos ⟨hex_ne_nil hq.sessionId, rfl, hq.token⟩
  · subst hresult
    dsimp only
    have hne : Protocol.computePairProof q.token (ascii "qr") q.sessionId q.senderId q.nonce
        q.deviceId ≠ [] := hex_ne_nil hproof
    rw [if_neg hne]
    refine .bind (Q := fun sent => About begun pairingView fun v spoken missed =>
      sent = true ∧ At granted [scannedReply q] v spoken missed ∨ sent = false ∧ missed ≠ []) ?_
        fun sent => ?_
    · refine send_outline (by simp) pairingView_log _ ?_ ?_
      · rintro v spoken missed - ⟨rfl, rfl, rfl⟩
        exact ⟨⟨rfl, .inr rfl⟩, .inl ⟨rfl, rfl, rfl, rfl⟩⟩
      · rintro v spoken missed - -
        exact .inr ⟨rfl, by simp⟩
    · cases sent with
      | true =>
        refine .ret _ About.stable fun s _ hs => ?_
        rcases hs with ⟨-, -, hspoken, hmissed⟩ | ⟨hbad, -⟩
        · exact .inl ⟨rfl, hspoken, hmissed⟩
        · cases hbad
      | false =>
        refine .ret _ About.stable fun s _ hs => ?_
        rcases hs with ⟨hbad, -⟩ | ⟨-, hmissed⟩
        · cases hbad
        · exact .inr ⟨rfl, hmissed⟩

theorem final_handled (hq : q.Valid) :
    ReceiverSession.handleMessage (.pairFinal (scannedState q)) ⟨.text, finalText q⟩ =
      ReceiverSession.modify (fun s => s.note (.message ⟨.text, finalText q⟩ s.source)) >>=
        fun _ => pairFinal (scannedState q) (finalText q) := by
  have hcomposed := pairFinal_composed hq
  have hshort : (finalText q).length ≤ 2048 := hcomposed.short
  have hprotocol : jsonInteger (finalText q) (ascii "protocol") = some 6 :=
    hcomposed.flat.jsonInteger (by simp [pairFinalMembers])
  unfold ReceiverSession.handleMessage
  congr 1
  funext _
  rw [if_neg (by simpa using hshort)]
  dsimp only
  rw [hprotocol, if_neg (by decide)]

theorem final_read (hq : q.Valid) : Final q (scannedState q) (finalText q) := by
  have hflat := (pairFinal_composed hq).flat
  have htoken := text_read hflat "token" q.token (by simp [pairFinalMembers])
  refine ⟨?_, htoken, rfl, rfl, rfl⟩
  unfold pairFinalValid
  rw [finalText, textIs_read hflat "type" (ascii "pair") (by simp [pairFinalMembers]),
    textIs_read hflat "mode" (ascii "pair") (by simp [pairFinalMembers]),
    textIs_read hflat "type" (ascii "pair") (by simp [pairFinalMembers]),
    textIs_read hflat "mode" (ascii "pair") (by simp [pairFinalMembers]),
    text_read hflat "sessionId" q.sessionId (by simp [pairFinalMembers]),
    text_read hflat "senderId" q.senderId (by simp [pairFinalMembers]),
    text_read hflat "nonce" q.nonce (by simp [pairFinalMembers]), htoken, hq.token]
  simp [scannedState]

/-- What may conclude the exchange. -/
def Concludes (q : PairTuple) (reply : Reply) (outcome : Outcome) : Prop :=
  ∃ credential, hex credential 64 = true ∧ reply = .paired q.deviceId credential ∧
    outcome = .resolved (objectOf (pairedMembers q.deviceId credential))

theorem scanned_serves (hq : q.Valid) (hg : Granted q granted)
    (hproof : hex (scannedProof q) 64 = true)
    (hscanned : granted.2.sessionId = q.sessionId ∧ granted.2.token = q.token) :
    Serves begun (InTime granted.2.expiresAt) Bystanders [challengeText q, finalText q]
      (OfProving (scannedReply q) (Concludes q)) (scanning q granted begun)
      fun n handled => About begun pairingView (ComesScanned q granted n handled) where
  offers _ _ _ h := h
  other n s t hs ht := by
    obtain ⟨hview, hquiet⟩ := bystanders_quiet ht
    obtain ⟨hkeep, hprefix, -⟩ := quietly_keeps (P := fun _ _ _ => True) hs hview hquiet
    exact ⟨⟨hview, hquiet⟩, hkeep, said_prefix hprefix⟩
  said _ _ _ h := said_prefix h
  possible n s hs := by
    have hspeech : (said begun s).length ≤ n ∧
        OfProving (scannedReply q) (Concludes q) (said begun s) := by
      match n, hs.2 with
      | 0, ⟨_, hspoken⟩ => exact ⟨by simp [hspoken], .inl hspoken⟩
      | 1, ⟨_, hspoken⟩ =>
        rcases hspoken with hspoken | hspoken
        · exact ⟨by simp [hspoken], .inl hspoken⟩
        · exact ⟨by simp [hspoken], .inr (.inl hspoken)⟩
      | n + 2, hspoken =>
        rcases hspoken with hspoken | ⟨credential, hcredential, hspoken, -⟩
        · exact ⟨by simp [hspoken], .inr (.inl hspoken)⟩
        · exact ⟨by simp [hspoken],
            .inr (.inr ⟨_, _, ⟨credential, hcredential, rfl, rfl⟩, hspoken⟩)⟩
    exact ⟨hspeech.1, fun replies hp => hspeech.2.initial hp⟩
  take n s stage request hs hcomes hnext := by
    match n with
    | 0 =>
      obtain ⟨hstage, hspoken, hmissed⟩ := hcomes
      obtain ⟨hbegun, hview, -⟩ := hs
      obtain rfl := Handled.next.inj hstage
      obtain rfl : _ = request := Option.some.inj hnext
      have hspeech : (scanning q granted begun 1).invariant s := ⟨hbegun, hview, .inl hspoken⟩
      exact ⟨hspeech, challenge_taken hq hg hproof hscanned s hspeech ⟨hview, hspoken, hmissed⟩⟩
    | 1 =>
      obtain ⟨hbegun, hview, -⟩ := hs
      obtain rfl : _ = request := Option.some.inj hnext
      rcases hcomes with ⟨hstage, hspoken, hmissed⟩ | ⟨hbad, -⟩
      · obtain rfl := Handled.next.inj hstage
        have hspeech : (scanning q granted begun 2).invariant s := ⟨hbegun, .inl hspoken⟩
        refine ⟨hspeech, ?_⟩
        have hfinal : (scanning q granted begun 2).Outline ()
            (About begun pairingView (At granted [scannedReply q]))
            (pairFinal (scannedState q) (finalText q))
            fun handled => About begun pairingView (Ended q granted [scannedReply q] handled) :=
          pairFinal_outline hq hg (final_read hq) fun _ _ h => h
        rw [final_handled hq]
        exact (quiet_outline (message_quiet pairingView_log _)).bind (fun _ => hfinal) s hspeech
          ⟨hview, hspoken, hmissed⟩
      · cases hbad
    | n + 2 => simp at hnext

end Scanned

section Typed
variable {q : PairTuple} {granted : Trust × Grant} {begun : Nat}

def typedState (q : PairTuple) : PairChallengeState :=
  ⟨q.sessionId, q.senderId, [], q.deviceId, true⟩

/-- What may have been said while these requests were taken up. -/
def SaysTyped (q : PairTuple) (granted : Trust × Grant) : Nat → Trust × Grant → List Reply → Prop
  | 0, v, spoken => v = granted ∧ spoken = []
  | _, v, spoken => Tells q granted [] v spoken

def ComesTyped (q : PairTuple) (granted : Trust × Grant) :
    Nat → Handled → Trust × Grant → List Reply → List Reply → Prop
  | 0, handled, _, spoken, missed => handled = .next .initial ∧ spoken = [] ∧ missed = []
  | _, handled, v, spoken, missed => Ended q granted [] handled v spoken missed

abbrev typing (q : PairTuple) (granted : Trust × Grant) (begun n : Nat) :
    Discipline Unit ReceiverSession External :=
  serving begun pairingView (InTime granted.2.expiresAt) (SaysTyped q granted n)

def manualText (q : PairTuple) : Bytes := (objectOf (pairManualMembers q)).stringify

theorem manual_handled (hq : q.Valid) :
    ReceiverSession.handleMessage .initial ⟨.text, manualText q⟩ =
      ReceiverSession.modify (fun s => s.note (.message ⟨.text, manualText q⟩ s.source)) >>=
        fun _ => ReceiverSession.pairManualIpv4 (manualText q) := by
  have hcomposed := pairManual_composed hq
  have hshort : (manualText q).length ≤ 2048 := hcomposed.short
  have htype := textIs_read hcomposed.flat "type" (ascii "pair_manual_ipv4")
    (by simp [pairManualMembers])
  have hprotocol : jsonInteger (manualText q) (ascii "protocol") = some 6 :=
    hcomposed.flat.jsonInteger (by simp [pairManualMembers])
  unfold ReceiverSession.handleMessage
  congr 1
  funext _
  rw [if_neg (by simpa using hshort)]
  dsimp only
  rw [hprotocol, if_neg (by decide), manualText, htype, if_pos (by decide)]

/-- The request of a user who typed the address is its own final request. -/
theorem manual_read (hq : q.Valid) : Final q (typedState q) (manualText q) := by
  have hcomposed := pairManual_composed hq
  have hflat := hcomposed.flat
  have htoken := text_read hflat "token" q.token (by simp [pairManualMembers])
  have hnonce : Receiver.text (manualText q) "nonce" = [] := by
    have habsent : Protocol.jsonString (manualText q) (ascii "nonce") = none := by
      refine hflat.absent (by decide +kernel) fun m hm => ⟨?_, ?_⟩
      · intro hbad
        have hname : ascii "nonce" ∈ pairManualNames := by
          rw [← hbad, ← hcomposed.named]
          exact List.mem_map_of_mem hm
        exact absurd hname (by decide +kernel)
      · rintro value hvalue rfl
        simp only [pairManualMembers, List.mem_cons, List.not_mem_nil, or_false] at hm
        rcases hm with rfl | rfl | rfl | rfl | rfl | rfl
        · exact absurd hvalue (by decide +kernel)
        · cases hvalue
        · exact absurd hvalue (by decide +kernel)
        · exact absurd hq.sessionId (by rw [Scalar.text.inj hvalue]; decide +kernel)
        · exact absurd hq.token (by rw [Scalar.text.inj hvalue]; decide +kernel)
        · exact absurd hq.senderId (by rw [Scalar.text.inj hvalue]; decide +kernel)
    rw [Receiver.text, habsent]
    rfl
  refine ⟨?_, htoken, rfl, rfl, rfl⟩
  unfold pairFinalValid
  rw [hnonce, manualText, textIs_read hflat "type" (ascii "pair_manual_ipv4") (by simp [pairManualMembers]),
    textIs_read hflat "mode" (ascii "pair_manual_ipv4") (by simp [pairManualMembers]),
    text_read hflat "sessionId" q.sessionId (by simp [pairManualMembers]),
    text_read hflat "senderId" q.senderId (by simp [pairManualMembers]), htoken, hq.token]
  simp [typedState]

theorem manual_taken (hq : q.Valid) (hg : Granted q granted) :
    (typing q granted begun 1).Outline () (About begun pairingView (At granted []))
      (ReceiverSession.handleMessage .initial ⟨.text, manualText q⟩)
      fun handled => About begun pairingView (Ended q granted [] handled) := by
  have hflat := (pairManual_composed hq).flat
  have hfinal : (typing q granted begun 1).Outline () (About begun pairingView (At granted []))
      (pairFinal (typedState q) (manualText q))
      fun handled => About begun pairingView (Ended q granted [] handled) :=
    pairFinal_outline hq hg (manual_read hq) fun _ _ h => h
  rw [manual_handled hq]
  refine (quiet_outline (message_quiet pairingView_log _)).bind fun _ => ?_
  unfold ReceiverSession.pairManualIpv4
  dsimp only
  have hread : textIs (manualText q) "mode" "pair_manual_ipv4" = true ∧
      Receiver.text (manualText q) "sessionId" = q.sessionId ∧
      Receiver.text (manualText q) "senderId" = q.senderId := by
    rw [manualText, textIs_read hflat "mode" (ascii "pair_manual_ipv4") (by simp [pairManualMembers])]
    exact ⟨by simp, text_read hflat "sessionId" q.sessionId (by simp [pairManualMembers]),
      text_read hflat "senderId" q.senderId (by simp [pairManualMembers])⟩
  rw [hread.1, hread.2.1, hread.2.2, if_neg (by simp [hq.sessionId, hq.senderId])]
  have hdevice : ∀ s, About begun pairingView (At granted []) s → s.deviceId = q.deviceId := by
    intro s hs
    rw [← hg.deviceId, ← hs.1]
    rfl
  refine .bind (load_outline (R := fun deviceId => deviceId = q.deviceId) hdevice) fun deviceId =>
    .when fun h => ?_
  subst h
  exact hfinal

theorem typed_serves (hq : q.Valid) (hg : Granted q granted) :
    Serves begun (InTime granted.2.expiresAt) Bystanders [manualText q] (OfAsking (Concludes q))
      (typing q granted begun) fun n handled => About begun pairingView (ComesTyped q granted n handled) where
  offers _ _ _ h := h
  other n s t hs ht := by
    obtain ⟨hview, hquiet⟩ := bystanders_quiet ht
    obtain ⟨hkeep, hprefix, -⟩ := quietly_keeps (P := fun _ _ _ => True) hs hview hquiet
    exact ⟨⟨hview, hquiet⟩, hkeep, said_prefix hprefix⟩
  said _ _ _ h := said_prefix h
  possible n s hs := by
    have hspeech : (said begun s).length ≤ n ∧ OfAsking (Concludes q) (said begun s) := by
      match n, hs.2 with
      | 0, ⟨_, hspoken⟩ => exact ⟨by simp [hspoken], .inl hspoken⟩
      | n + 1, hspoken =>
        rcases hspoken with hspoken | ⟨credential, hcredential, hspoken, -⟩
        · exact ⟨by simp [hspoken], .inl hspoken⟩
        · exact ⟨by simp [hspoken], .inr ⟨_, _, ⟨credential, hcredential, rfl, rfl⟩, hspoken⟩⟩
    exact ⟨hspeech.1, fun replies hp => hspeech.2.initial hp⟩
  take n s stage request hs hcomes hnext := by
    match n with
    | 0 =>
      obtain ⟨hstage, hspoken, hmissed⟩ := hcomes
      obtain ⟨hbegun, hview, -⟩ := hs
      obtain rfl := Handled.next.inj hstage
      obtain rfl : _ = request := Option.some.inj hnext
      have hspeech : (typing q granted begun 1).invariant s := ⟨hbegun, .inl hspoken⟩
      exact ⟨hspeech, manual_taken hq hg s hspeech ⟨hview, hspoken, hmissed⟩⟩
    | n + 1 => simp at hnext

end Typed

section Script
variable {p : Platform} {q : PairTuple} {authorization : Authorization}

/-- The authorization is what the pairing is about. -/
structure Asks (authorization : Authorization) (q : PairTuple) : Prop where
  sessionId : authorization.sessionId = q.sessionId
  token : authorization.token = q.token

theorem challenge_text (h : Asks authorization q) :
    Object.text (DirectClient.pairChallenge authorization q.senderId q.nonce) = challengeText q := by
  rw [DirectClient.pairChallenge, h.sessionId]
  rfl

theorem final_text (h : Asks authorization q) :
    Object.text (pairSecretRequest authorization q.senderId q.nonce) = finalText q := by
  rw [pairSecretRequest, h.sessionId, h.token]
  rfl

theorem manual_text (h : Asks authorization q) :
    Object.text (DirectClient.pairManualIpv4 authorization q.senderId) = manualText q := by
  rw [DirectClient.pairManualIpv4, h.sessionId, h.token]
  rfl

theorem request_built (hp : Standard p) (hq : q.Valid) (h : Asks authorization q) :
    hex (scannedProof q) 64 = true ∧
      Proved p (pairOptions p authorization q.senderId q.nonce) (scannedReply q).text
        (objectOf (pairProofMembers q (scannedProof q)))
        (pairSecretRequest authorization q.senderId q.nonce) := by
  obtain ⟨proof, hscript, hnative, hhex⟩ := pair_proofs_agree hp hq
  obtain rfl : scannedProof q = proof := hnative
  have hcomposed := pairProof_composed hq hhex
  have hflat := hcomposed.flat
  have htext := pairProof_text hq hhex
  have hprotocol : (ascii "protocol", Scalar.count 6) ∈ pairProofMembers q (scannedProof q) := by
    simp [pairProofMembers]
  have hequal : constantTimeEqualProof (scannedProof q) (scannedProof q) = true :=
    (constantTimeEqualProof_iff _ _).mpr ⟨rfl, hhex⟩
  have hdevice : testedText (objectOf (pairProofMembers q (scannedProof q))) "deviceId"
      (hexTest 32) = .ok q.deviceId :=
    testedText_of (hflat.textOr (by simp [pairProofMembers]) "") hq.deviceId
  have hgiven : testedText (objectOf (pairProofMembers q (scannedProof q))) "proof" (hexTest 64) =
      .ok (scannedProof q) := testedText_of (hflat.textOr (by simp [pairProofMembers]) "") hhex
  refine ⟨hhex, ⟨?_, ?_, hflat.isText (by simp [pairProofMembers, pairOptions])⟩, rfl,
    by simp only [pairOptions]; decide, hflat.isNumber hprotocol, ?_⟩
  · rw [scannedReply, htext]
    exact hcomposed.short
  · rw [scannedReply, htext]
    exact hp.parse _ hflat
  · simp only [pairOptions]
    unfold buildPairRequest
    rw [h.sessionId, h.token, if_neg, hdevice, hgiven]
    · have hproof : DirectProtocol.computePairProof p q.token
          ⟨ascii "qr", q.sessionId, q.senderId, q.nonce, q.deviceId⟩ = .ok (scannedProof q) := hscript
      simp [scripted, Except.mapError, bind, Except.bind, hproof, hequal]
    · have hmode := @Flat.isText _ "mode" hflat (ascii "pair") (by simp [pairProofMembers])
      have hproofMode := @Flat.isText _ "proofMode" hflat (ascii "qr") (by simp [pairProofMembers])
      have hsession := @Flat.isText _ "sessionId" hflat q.sessionId (by simp [pairProofMembers])
      have hsender := @Flat.isText _ "senderId" hflat q.senderId (by simp [pairProofMembers])
      have hnonce := @Flat.isText _ "nonce" hflat q.nonce (by simp [pairProofMembers])
      simp [hmode, hproofMode, hsession, hsender, hnonce]

/-- The script takes the credential of the Receiver. -/
theorem conclusion_decided (hp : Standard p) (hq : q.Valid) {r : Options} {proof : Option Extension.Value}
    (hexpected : r.expectedType = "paired")
    (hvalid : ∀ response : Extension.Value, response.member "deviceId" = some (.string q.deviceId) →
      r.validateFinal response proof = .ok ())
    (reply : Reply) (outcome : Outcome) (h : Concludes q reply outcome) :
    Decided p r proof reply.text outcome := by
  obtain ⟨credential, hcredential, rfl, rfl⟩ := h
  have hcomposed := paired_composed hq.deviceId hcredential
  have hflat := hcomposed.flat
  have hprotocol : (ascii "protocol", Scalar.count 6) ∈ pairedMembers q.deviceId credential := by
    simp [pairedMembers]
  have hdevice : (ascii "deviceId", Scalar.text q.deviceId) ∈ pairedMembers q.deviceId credential := by
    simp [pairedMembers]
  have htype : (objectOf (pairedMembers q.deviceId credential)).isText "type" (ascii "paired") = true :=
    hflat.isText (by simp [pairedMembers])
  refine .agreed ⟨?_, ?_, by rw [hexpected]; exact htype⟩ (hflat.isNumber hprotocol)
    (hvalid _ (hflat.member hdevice))
  · rw [paired_text hq.deviceId hcredential]
    exact hcomposed.short
  · rw [paired_text hq.deviceId hcredential]
    exact hp.parse _ hflat

end Script

section Meetings
variable {p : Platform} {q : PairTuple} {granted : Trust × Grant} {host : Text}
  {authorization : Authorization} {senderId nonce : Bytes} {s : ReceiverSession} {m : Meeting}

/-- The user scanned the script's code. -/
def Scanned (authorization : Authorization) (s : ReceiverSession) : Prop :=
  s.pendingSessionId = authorization.sessionId ∧ s.pendingToken = authorization.token

/-- The user typed the script's short code. -/
def Typed (authorization : Authorization) (s : ReceiverSession) : Prop :=
  shortCodeFromToken authorization.token = .ok s.pendingShortCode

/-- The Receiver waits for the pairing that the script asks for. Under the default name it must
have been scanned. -/
structure Expects (host : Text) (authorization : Authorization) (senderId nonce : Bytes)
    (s : ReceiverSession) : Prop where
  sessionId : hex authorization.sessionId 32 = true
  token : hex authorization.token 64 = true
  senderId : senderIdValid senderId = true
  deviceId : hex s.deviceId 32 = true
  fresh : authorization.sessionId ≠ s.consumedSessionId
  automatic : host = defaultReceiverHost → hex nonce 64 = true ∧ Scanned authorization s
  numeric : host ≠ defaultReceiverHost → Scanned authorization s ∨ Typed authorization s

/-- The pairing by this script, before the grant expires. -/
abbrev pairingWith (p : Platform) (host : Text) (authorization : Authorization)
    (senderId nonce : Bytes) (s : ReceiverSession) :
    Dialogue Exchange Act Bytes Reply ReceiverSession External Handled :=
  conversation p (pairReceiverOptions p host authorization senderId nonce) s.log.length
    (InTime s.pairingExpiresAt) Bystanders

/-- What a pairing that began in `s` has come to. -/
structure Pairs (host : Text) (authorization : Authorization) (senderId : Bytes)
    (s : ReceiverSession) (m : Meeting) : Prop where
  /-- Neither end finds fault with the other. -/
  faultless : ∀ f, m.client.outcome ≠ some (.rejected f)
  unrefused : ∀ code, .error code ∉ said s.log.length m.session
  /-- The script keeps what the Receiver trusts, and the grant is used up. -/
  paired : ∀ response now, m.client.outcome = some (.resolved response) → ∃ device,
    pairedDevice senderId host now response = .ok device ∧
      trust m.session = ⟨device.deviceId, device.senderId, device.credential⟩ ∧
      grant m.session = ⟨[], [], [], authorization.sessionId, s.pairingExpiresAt⟩
  /-- It does not get stuck unless a reply was lost. -/
  completes : Rests s.log.length m → lost s.log.length m.session ≠ [] ∨
    ∃ response, m.client.outcome = some (.resolved response)

theorem pairedDevice_ok {normalized : Text} (hq : q.Valid) (hhost : normalizeReceiverHost host = .ok normalized)
    {credential : Bytes} (hcredential : hex credential 64 = true) (now : Int) :
    ∃ device, pairedDevice q.senderId normalized now (objectOf (pairedMembers q.deviceId credential)) =
      .ok device ∧ device.deviceId = q.deviceId ∧ device.senderId = q.senderId ∧
        device.credential = credential := by
  have hflat := (paired_composed hq.deviceId hcredential).flat
  have hdevice := @Flat.textOr _ "deviceId" hflat q.deviceId (by simp [pairedMembers]) ""
  have hgiven := @Flat.textOr _ "credential" hflat credential (by simp [pairedMembers]) ""
  have htests : senderIdTest q.senderId = true ∧ hexTest 32 q.deviceId = true ∧
      hexTest 64 credential = true := ⟨hq.senderId, hq.deviceId, hcredential⟩
  have hnormal := ReceiverHost.normalize_idem hhost
  rw [pairedDevice, hdevice, hgiven]
  unfold validateTrustedDevice
  simp only [Option.getD_some, hnormal]
  rw [dif_pos htests]
  exact ⟨_, rfl, rfl, rfl, rfl⟩

/-- What the script concludes with was told by the Receiver. -/
theorem told_of {front : List Reply} {reply : Reply} {outcome : Outcome} {v : Trust × Grant}
    {spoken : List Reply} (hc : Concludes q reply outcome) (hp : front ++ [reply] <+: spoken)
    (h : Tells q granted front v spoken) : ∃ credential, hex credential 64 = true ∧
      outcome = .resolved (objectOf (pairedMembers q.deviceId credential)) ∧
      v = pairedView q granted credential := by
  obtain ⟨credential, hcredential, rfl, rfl⟩ := hc
  rcases h with rfl | ⟨other, -, rfl, hview⟩
  · have hbad := hp.length_le
    simp at hbad
  · obtain rfl : credential = other := by
      have hsame := (List.prefix_append_right_inj front).mp hp
      simpa using hsame
    exact ⟨credential, hcredential, rfl, hview⟩

/-- The part of the conclusion that does not depend on how the user granted the pairing. -/
theorem pairs_of {front : List Reply} {normalized : Text} (hq : q.Valid)
    (hhost : normalizeReceiverHost host = .ok normalized)
    (houtcome : ∀ outcome, m.client.outcome = some outcome → ∃ reply, Concludes q reply outcome ∧
      front ++ [reply] <+: said s.log.length m.session)
    (hspeech : front.length < (said s.log.length m.session).length →
      Tells q (pairingView s) front (pairingView m.session) (said s.log.length m.session))
    (hfront : ∀ code, .error code ∉ front)
    (hsilent : (said s.log.length m.session).length ≤ front.length →
      said s.log.length m.session <+: front)
    (hsession : authorization.sessionId = q.sessionId)
    (hcompletes : Rests s.log.length m → lost s.log.length m.session ≠ [] ∨
      m.client.outcome ≠ none) : Pairs normalized authorization q.senderId s m := by
  have htold : ∀ outcome, m.client.outcome = some outcome → ∃ credential, hex credential 64 = true ∧
      outcome = .resolved (objectOf (pairedMembers q.deviceId credential)) ∧
      pairingView m.session = pairedView q (pairingView s) credential := by
    intro outcome h
    obtain ⟨reply, hconcludes, hsaid⟩ := houtcome outcome h
    have hlonger := hsaid.length_le
    rw [List.length_append, List.length_singleton] at hlonger
    exact told_of hconcludes hsaid (hspeech hlonger)
  refine ⟨?_, ?_, ?_, ?_⟩
  · intro f h
    obtain ⟨credential, -, hbad, -⟩ := htold _ h
    cases hbad
  · intro code hmem
    rcases Nat.lt_or_ge front.length (said s.log.length m.session).length with hlonger | hshorter
    · rcases hspeech hlonger with hsame | ⟨credential, -, hsame, -⟩
      · exact hfront code (hsame ▸ hmem)
      · rw [hsame] at hmem
        rcases List.mem_append.mp hmem with hmem | hmem
        · exact hfront code hmem
        · cases List.mem_singleton.mp hmem
    · exact hfront code ((hsilent hshorter).subset hmem)
  · intro response now h
    obtain ⟨credential, hcredential, hresponse, hview⟩ := htold _ h
    obtain rfl := Outcome.resolved.inj hresponse
    obtain ⟨device, hdevice, hid, hsender, hsecret⟩ := pairedDevice_ok hq hhost hcredential now
    have htrust : trust m.session = ⟨q.deviceId, q.senderId, credential⟩ := congrArg Prod.fst hview
    have hgrant : grant m.session = ⟨[], [], [], q.sessionId, s.pairingExpiresAt⟩ :=
      congrArg Prod.snd hview
    exact ⟨device, hdevice, by rw [htrust, hid, hsender, hsecret], by rw [hgrant, hsession]⟩
  · intro h
    rcases hcompletes h with hlost | hsome
    · exact .inl hlost
    · obtain ⟨outcome, houtcome⟩ := Option.ne_none_iff_exists'.mp hsome
      obtain ⟨credential, -, rfl, -⟩ := htold _ houtcome
      exact .inr ⟨_, houtcome⟩

theorem silent_start (s : ReceiverSession) :
    said s.log.length s = [] ∧ lost s.log.length s = [] := by
  simp [said, lost, wholeReplies]

theorem Ended.concluded {front : List Reply} {handled : Handled} {v : Trust × Grant}
    {spoken missed : List Reply} (h : Ended q granted front handled v spoken missed) :
    missed ≠ [] ∨ spoken ≠ front := by
  rcases h.2 with hmissed | ⟨-, hspoken⟩
  · exact .inl hmissed
  · exact .inr hspoken

theorem scanned_completes {r : Options} {message : Extension.Value} {secret : Object} {begun : Nat}
    (hclient : Proving r (scannedReply q) message secret (Concludes q) m.client m.heard)
    (hcomes : ∀ handled, m.server = .ret handled → ComesScanned q granted m.taken.length handled
      (pairingView m.session) (said begun m.session) (lost begun m.session))
    (h : Rests begun m) : lost begun m.session ≠ [] ∨ m.client.outcome ≠ none := by
  obtain ⟨hopened, hverified, hheard, htaken, handled, hwaits⟩ := h
  have hcome := hcomes handled hwaits
  rw [← hheard] at hcome
  generalize m.client = x at *
  generalize m.heard = heard at *
  cases hclient with
  | fresh => cases hopened
  | checking => cases hverified
  | asked =>
    have hone : m.taken.length = 1 := by simp [htaken]
    rw [hone] at hcome
    rcases hcome with ⟨-, hbad, -⟩ | ⟨-, hmissed⟩
    · cases hbad
    · exact .inl hmissed
  | released =>
    have htwo : m.taken.length = 2 := by simp [htaken]
    rw [htwo] at hcome
    rcases hcome.concluded with hmissed | hbad
    · exact .inl hmissed
    · exact absurd rfl hbad
  | concluded => exact .inr (by simp [concluded])

theorem typed_completes {r : Options} {begun : Nat}
    (hclient : Asking r (Concludes q) m.client m.heard)
    (hcomes : ∀ handled, m.server = .ret handled → ComesTyped q granted m.taken.length handled
      (pairingView m.session) (said begun m.session) (lost begun m.session))
    (h : Rests begun m) : lost begun m.session ≠ [] ∨ m.client.outcome ≠ none := by
  obtain ⟨hopened, -, hheard, htaken, handled, hwaits⟩ := h
  have hcome := hcomes handled hwaits
  rw [← hheard] at hcome
  generalize m.client = x at *
  generalize m.heard = heard at *
  cases hclient with
  | fresh => cases hopened
  | asked =>
    have hone : m.taken.length = 1 := by simp [htaken]
    rw [hone] at hcome
    rcases hcome.concluded with hmissed | hbad
    · exact .inl hmissed
    · exact absurd rfl hbad
  | concluded => exact .inr (by simp [concluded])

theorem SaysScanned.tells {n : Nat} {v : Trust × Grant} {spoken : List Reply}
    (h : SaysScanned q granted n v spoken) (hlonger : [scannedReply q].length < spoken.length) :
    Tells q granted [scannedReply q] v spoken := by
  rcases n with _ | _ | n
  · obtain ⟨-, rfl⟩ := h
    cases hlonger
  · obtain ⟨-, rfl | rfl⟩ := h
    · cases hlonger
    · exact absurd hlonger (Nat.lt_irrefl _)
  · exact h

theorem SaysScanned.begins {n : Nat} {v : Trust × Grant} {spoken : List Reply}
    (h : SaysScanned q granted n v spoken) (hshorter : spoken.length ≤ [scannedReply q].length) :
    spoken <+: [scannedReply q] := by
  rcases n with _ | _ | n
  · obtain ⟨-, rfl⟩ := h
    exact List.nil_prefix
  · obtain ⟨-, rfl | rfl⟩ := h
    · exact List.nil_prefix
    · exact List.prefix_rfl
  · rcases h with rfl | ⟨credential, -, rfl, -⟩
    · exact List.prefix_rfl
    · simp at hshorter

theorem SaysTyped.tells {n : Nat} {v : Trust × Grant} {spoken : List Reply}
    (h : SaysTyped q granted n v spoken) (hlonger : ([] : List Reply).length < spoken.length) :
    Tells q granted [] v spoken := by
  cases n with
  | zero =>
    obtain ⟨-, rfl⟩ := h
    cases hlonger
  | succ n => exact h

/-- A pairing under the default name, which the user granted by scanning the script's code. -/
theorem automatic_pairs {normalized : Text} (hp : Standard p) (hq : q.Valid) (ha : Asks authorization q)
    (hg : Granted q (pairingView s))
    (hscanned : s.pendingSessionId = q.sessionId ∧ s.pendingToken = q.token)
    (hhost : normalizeReceiverHost host = .ok normalized)
    (hm : Dialogue.Reaches (conversation p (pairOptions p authorization q.senderId q.nonce)
      s.log.length (InTime s.pairingExpiresAt) Bystanders) (Meeting.start s) m) :
    Pairs normalized authorization q.senderId s m := by
  obtain ⟨hproof, hproved⟩ := request_built hp hq ha
  have hfollows := proving_follows hproved (by simp only [pairOptions]; decide)
    (conclusion_decided hp hq rfl fun response hdevice => by
      have hflat := (pairProof_composed hq hproof).flat
      have hin : (ascii "deviceId", Scalar.text q.deviceId) ∈ pairProofMembers q (scannedProof q) := by
        simp [pairProofMembers]
      have hmember := hflat.member hin
      simp [pairOptions, hdevice, hmember, Scalar.value, Extension.Value.strictEquals])
  have hsilent := silent_start s
  have hserves := @scanned_serves q (pairingView s) s.log.length hq hg hproof hscanned
  have hrequests : [Object.text (pairOptions p authorization q.senderId q.nonce).challenge,
      Object.text (pairSecretRequest authorization q.senderId q.nonce)] =
      [challengeText q, finalText q] := by
    rw [← challenge_text ha, ← final_text ha]
    rfl
  rw [hrequests] at hfollows
  have hkept := conversation_kept hfollows hserves ⟨le_refl _, rfl, hsilent.1⟩
    (fun t ht _ => by
      obtain ⟨hsaid, hlost⟩ := ht.2.replies s.log.length
      exact ⟨rfl, hsaid.trans hsilent.1, hlost.trans hsilent.2⟩) hm
  have hspeech : SaysScanned q (pairingView s) m.taken.length (pairingView m.session)
      (said s.log.length m.session) := hkept.invariant.2
  refine pairs_of hq hhost (fun outcome h => ?_) hspeech.tells
    (by simp [scannedReply, pairProof]) hspeech.begins ha.sessionId
    (scanned_completes hkept.client fun handled => hkept.returned)
  obtain ⟨reply, hreply, hheard⟩ := hkept.client.decided h
  have hsaid := hkept.heard
  rw [hheard] at hsaid
  exact ⟨reply, hreply, hsaid⟩

/-- A pairing with a numeric address, however the user granted it. -/
theorem numeric_pairs {normalized : Text} (hp : Standard p) (hq : q.Valid) (ha : Asks authorization q)
    (hg : Granted q (pairingView s)) (hhost : normalizeReceiverHost host = .ok normalized)
    (hm : Dialogue.Reaches (conversation p (pairManualOptions authorization q.senderId normalized)
      s.log.length (InTime s.pairingExpiresAt) Bystanders) (Meeting.start s) m) :
    Pairs normalized authorization q.senderId s m := by
  have hfollows : Follows p (pairManualOptions authorization q.senderId normalized) _
      (OfAsking (Concludes q)) (Asking _ (Concludes q)) := asking_follows rfl
    (by simp only [pairManualOptions]; decide) (conclusion_decided hp hq rfl fun _ _ => rfl)
  have hsilent := silent_start s
  have hserves := @typed_serves q (pairingView s) s.log.length hq hg
  have hrequest : Object.text (pairManualOptions authorization q.senderId normalized).challenge =
      manualText q := manual_text ha
  rw [hrequest] at hfollows
  have hkept := conversation_kept hfollows hserves ⟨le_refl _, rfl, hsilent.1⟩
    (fun t ht _ => by
      obtain ⟨hsaid, hlost⟩ := ht.2.replies s.log.length
      exact ⟨rfl, hsaid.trans hsilent.1, hlost.trans hsilent.2⟩) hm
  have hspeech : SaysTyped q (pairingView s) m.taken.length (pairingView m.session)
      (said s.log.length m.session) := hkept.invariant.2
  refine pairs_of hq hhost (fun outcome h => ?_) hspeech.tells (by simp) (fun hnone => ?_)
    ha.sessionId (typed_completes hkept.client fun handled => hkept.returned)
  · obtain ⟨reply, hreply, hheard⟩ := hkept.client.decided h
    have hsaid := hkept.heard
    rw [hheard] at hsaid
    exact ⟨reply, hreply, hsaid⟩
  · rw [List.eq_nil_of_length_eq_zero (Nat.le_zero.mp hnone)]

/-- However the two ends and the other threads of the Receiver take turns, a pairing that the user
granted in time gives the script the very credential that the Receiver trusts from then on, unless
a reply is lost. -/
theorem granted_pairing_agrees (p : Platform) (hp : Standard p) (host normalized : Text)
    (hhost : normalizeReceiverHost host = .ok normalized) (authorization : Authorization)
    (senderId nonce : Bytes) (s : ReceiverSession)
    (hs : Expects normalized authorization senderId nonce s) (m : Meeting)
    (hm : Dialogue.Reaches (pairingWith p normalized authorization senderId nonce s)
      (Meeting.start s) m) : Pairs normalized authorization senderId s m := by
  by_cases hdefault : normalized = defaultReceiverHost
  · obtain ⟨hnonce, hscanned⟩ := hs.automatic hdefault
    rw [pairingWith, pairReceiverOptions, if_pos hdefault] at hm
    exact automatic_pairs (q := ⟨authorization.sessionId, authorization.token, senderId, nonce,
      s.deviceId⟩) hp ⟨hs.sessionId, hs.token, hs.senderId, hnonce, hs.deviceId⟩ ⟨rfl, rfl⟩
      ⟨rfl, hs.fresh, .inl hscanned⟩ hscanned hhost hm
  · rw [pairingWith, pairReceiverOptions, if_neg hdefault] at hm
    -- nothing is proved to a Receiver at a numeric address, so any nonce will do
    let q : PairTuple := ⟨authorization.sessionId, authorization.token, senderId,
      List.replicate 64 0x30, s.deviceId⟩
    have hmatched : s.pendingSessionId = q.sessionId ∧ s.pendingToken = q.token ∨
        s.pendingShortCode = pairingShortCode q.token := by
      refine (hs.numeric hdefault).imp_right fun htyped => ?_
      have hagreed := (short_codes_agree (q := q) hs.token).1
      exact Except.ok.inj (htyped.symm.trans hagreed)
    have hnonce : hex (List.replicate 64 0x30) 64 = true := by decide
    exact numeric_pairs (q := q) hp ⟨hs.sessionId, hs.token, hs.senderId, hnonce, hs.deviceId⟩
      ⟨rfl, rfl⟩ ⟨rfl, hs.fresh, hmatched⟩ hhost hm

end Meetings

section Run

def offered : Authorization where
  sessionId := List.replicate 32 0x61
  token := List.replicate 64 0x62
  expiresAt := 1000
  shortCode := pairingShortCode (List.replicate 64 0x62)

/-- The user has typed the code of what is offered. -/
def granting : ReceiverSession :=
  { ({} : ReceiverSession) with
    deviceId := List.replicate 32 0x63
    pendingShortCode := pairingShortCode offered.token
    pairingExpiresAt := 1000000
    controlSocket := true }

/-- Every reply goes out at once, and the random bytes are there. -/
def ready : External :=
  { sendMutex := true, sends := [.sent 4096], random := some fun _ => 0x5a }

def pairingSchedule : List (Dialogue.Move Act External) :=
  [.act .opened, .take] ++ List.replicate 4 (.work ready) ++ [.hear]

def typedHost : Text := "192.168.1.8".toList

abbrev offeredPairing : Dialogue Exchange Act Bytes Reply ReceiverSession External Handled :=
  pairingWith browser typedHost offered (List.replicate 16 0x64) (List.replicate 64 0x65) granting

instance : DecidablePred offeredPairing.offers :=
  fun _ => inferInstanceAs (Decidable (_ ∧ _))

theorem granted_pairing_once : ∃ m : Meeting,
    Dialogue.Reaches offeredPairing (Meeting.start granting) m ∧ m.client.outcome.isSome = true ∧
      Pairs typedHost offered (List.replicate 16 0x64) granting m := by
  have hplayed : ((offeredPairing.play pairingSchedule (Meeting.start granting)).map
      fun m => m.client.outcome.isSome) = some true := by
    decide +kernel
  obtain ⟨m, hm, hsome⟩ := Option.map_eq_some_iff.mp hplayed
  have hreaches := Dialogue.Reaches.refl.play pairingSchedule hm
  have hnormalized : normalizeReceiverHost typedHost = .ok typedHost := by
    decide
  have htyped : typedHost ≠ defaultReceiverHost := by
    decide
  exact ⟨m, hreaches, hsome, granted_pairing_agrees browser browser_standard typedHost typedHost
    hnormalized offered _ (List.replicate 64 0x65) granting
    ⟨by decide, by decide, by decide, by decide, by decide, fun h => absurd h htyped,
      fun _ => .inr (by unfold Typed; decide)⟩ m hreaches⟩

end Run

end HarmonyScreen.Proofs.HonestPairing
