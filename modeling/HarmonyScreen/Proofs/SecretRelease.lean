import HarmonyScreen.Extension.DirectClient
import HarmonyScreen.Lib.History

namespace HarmonyScreen.Proofs.SecretRelease
open Lib Receiver
open Extension Extension.DirectProtocol Extension.DirectClient

def receivedData : Observation → Option Data
  | .received data => some data
  | _ => none

/-- What the script was given, in order. -/
def received (log : List Observation) : List Data := log.filterMap receivedData

/-- A text that is parsed to such a message. -/
def Delivers (p : Platform) (proof : Value → Prop) (data : Data) : Prop :=
  ∃ value message, data = .text value ∧ p.parse value = some message ∧ proof message

/-- The secret goes out once, before the exchange has settled, and only when exactly one of the
messages received so far was the proof. -/
def Released (p : Platform) (proof : Value → Prop) (secret : Object → Prop) (earlier : List Observation) :
    Observation → Prop
  | .sent request => secret request →
      (∃ before data after, received earlier = before ++ data :: after ∧ Delivers p proof data ∧
        ∀ other ∈ before ++ after, ¬ Delivers p proof other) ∧
      .settled ∉ earlier ∧ ∀ request', .sent request' ∈ earlier → ¬ secret request'
  | _ => True

/-- The answer of a Receiver that has the credential. -/
structure ProvesCredential (p : Platform) (credential : Bytes) (c : AuthChallenge)
    (message : Value) : Prop where
  protocol : message.isNumber "protocol" (.integer 6) = true
  type : message.isText "type" (ascii "auth_proof") = true
  mode : message.isText "mode" (ascii "auth") = true
  senderId : message.isText "senderId" c.senderId = true
  deviceId : message.isText "deviceId" c.deviceId = true
  sourceEpoch : message.isNumber "sourceEpoch" c.sourceEpoch = true
  nonce : message.isText "nonce" c.nonce = true
  proof : ∃ keyBytes canonical, hexToBytes credential 32 "长期凭据格式无效" = .ok keyBytes ∧
    createAuthProofMessage c = .ok canonical ∧
    Value.textOr "" (message.member "proof") = some (hmacSha256Hex p keyBytes canonical)

/-- The answer of a Receiver that has the token. -/
structure ProvesToken (p : Platform) (authorization : Authorization) (sender challenge : Bytes)
    (message : Value) : Prop where
  protocol : message.isNumber "protocol" (.integer 6) = true
  type : message.isText "type" (ascii "pair_proof") = true
  mode : message.isText "mode" (ascii "pair") = true
  proofMode : message.isText "proofMode" (ascii "qr") = true
  sessionId : message.isText "sessionId" authorization.sessionId = true
  senderId : message.isText "senderId" sender = true
  nonce : message.isText "nonce" challenge = true
  proof : ∃ deviceId keyBytes canonical,
    Value.textOr "" (message.member "deviceId") = some deviceId ∧
    hexToBytes authorization.token 32 "配对令牌格式无效" = .ok keyBytes ∧
    createPairProofMessage ⟨ascii "qr", authorization.sessionId, sender, challenge, deviceId⟩ =
      .ok canonical ∧
    Value.textOr "" (message.member "proof") = some (hmacSha256Hex p keyBytes canonical)

section Exchange
variable {p : Platform} {r : Options} {proof : Value → Prop} {secret : Object → Prop} {x : Exchange}

/-- What the secret waits for. -/
structure Waits (p : Platform) (r : Options) (proof : Value → Prop) (secret : Object → Prop) : Prop where
  proved : r.skipProof = false
  challenge : ¬ secret r.challenge
  type : ascii r.proofType ≠ ascii "error"
  typed : ∀ message, proof message → message.isText "type" (ascii r.proofType) = true
  build : ∀ available message request,
    message.isNumber "protocol" (.integer directProtocol) = true →
    message.isText "type" (ascii r.proofType) = true →
    r.buildSecretRequest available message = .ok request → proof message

def Unsent (secret : Object → Prop) (log : List Observation) : Prop :=
  ∀ request, .sent request ∈ log → ¬ secret request

/-- How far an exchange that has not settled has come. -/
def Phase (p : Platform) (r : Options) (proof : Value → Prop) (secret : Object → Prop) (x : Exchange) : Prop :=
  match x.stage with
  | .opening | .awaitingProof =>
    x.verifying = none ∧ Unsent secret x.log ∧ ∀ data ∈ received x.log, ¬ Delivers p proof data
  | .verifyingProof => ∃ message before value, x.verifying = some message ∧
      received x.log = before ++ [.text value] ∧ p.parse value = some message ∧
      message.isNumber "protocol" (.integer directProtocol) = true ∧
      message.isText "type" (ascii r.proofType) = true ∧ Unsent secret x.log ∧
      ∀ data ∈ before, ¬ Delivers p proof data
  | .awaitingResult => x.verifying = none ∧ x.opens = false

structure Guarded (p : Platform) (r : Options) (proof : Value → Prop) (secret : Object → Prop)
    (x : Exchange) : Prop where
  history : History (Released p proof secret) x.log
  unsettled : x.settled = false → .settled ∉ x.log ∧ Phase p r proof secret x ∧
    (x.opens = true → x.stage = .opening)

theorem Guarded.finish (h : History (Released p proof secret) x.log) (outcome : Outcome) :
    Guarded p r proof secret (x.finish outcome) := by
  unfold Exchange.finish
  split
  · rename_i hsettled
    refine ⟨h, fun hopen => ?_⟩
    rw [hsettled] at hopen
    cases hopen
  · refine ⟨h.concat trivial, fun hopen => ?_⟩
    simp [Exchange.settled] at hopen

theorem Guarded.reject (h : History (Released p proof secret) x.log) (failure : Failure) :
    Guarded p r proof secret (x.reject failure) := .finish h _

theorem Guarded.close (h : Guarded p r proof secret x) : Guarded p r proof secret x.closeSocket :=
  ⟨h.history, h.unsettled⟩

theorem handleOpen_guarded (hw : Waits p r proof secret) (h : Guarded p r proof secret x)
    (hopen : x.settled = false) (throws : Bool) : Guarded p r proof secret (handleOpen r x throws) := by
  obtain ⟨hlog, hphase, hstage⟩ := h.unsettled hopen
  unfold handleOpen
  split
  · exact h
  · rename_i hopens
    simp only [Bool.not_eq_true', Bool.not_eq_false] at hopens
    rw [Phase, hstage hopens] at hphase
    obtain ⟨hverifying, hunsent, hnone⟩ := hphase
    dsimp only
    split
    · apply Guarded.close
      apply Guarded.reject
      exact h.history
    · refine ⟨h.history.concat fun hcarries => absurd hcarries hw.challenge, fun _ => ⟨?_, ?_, ?_⟩⟩
      · simpa [Exchange.send, Exchange.note] using hlog
      · simp only [Phase, Exchange.send, Exchange.note, hw.proved]
        refine ⟨hverifying, ?_, ?_⟩
        · intro request hmem
          rcases List.mem_append.mp hmem with hmem | hmem
          · exact hunsent request hmem
          · simp only [List.mem_singleton, Observation.sent.injEq] at hmem
            rw [hmem]
            exact hw.challenge
        · simpa [received, receivedData, List.filterMap_append] using hnone
      · intro hagain
        cases hagain

/-- Only in one stage a proof is being computed. -/
theorem Phase.verifying {message : Value} (h : Phase p r proof secret x)
    (hverifying : x.verifying = some message) : ∃ before value, x.stage = .verifyingProof ∧
      received x.log = before ++ [.text value] ∧ p.parse value = some message ∧
      message.isNumber "protocol" (.integer directProtocol) = true ∧
      message.isText "type" (ascii r.proofType) = true ∧ Unsent secret x.log ∧
      ∀ data ∈ before, ¬ Delivers p proof data := by
  unfold Phase at h
  split at h
  · rw [h.1] at hverifying
    cases hverifying
  · rw [h.1] at hverifying
    cases hverifying
  · rename_i hstage
    obtain ⟨other, before, value, hother, hrest⟩ := h
    obtain rfl : other = message := Option.some.inj (hother.symm.trans hverifying)
    exact ⟨before, value, hstage, hrest⟩
  · rw [h.1] at hverifying
    cases hverifying

theorem received_note (x : Exchange) (data : Data) :
    received (x.note (.received data)).log = received x.log ++ [data] := by
  simp [Exchange.note, received, receivedData]

theorem unsent_received {data : Data} (h : Unsent secret x.log) :
    Unsent secret (x.note (.received data)).log := by
  intro request hmem
  simp only [Exchange.note, List.mem_append, List.mem_singleton, reduceCtorEq, or_false] at hmem
  exact h request hmem

/-- A message that is no proof and changes nothing. -/
theorem Phase.receive {data : Data} (h : Phase p r proof secret x)
    (hstage : x.stage = .awaitingProof ∨ x.stage = .awaitingResult)
    (hno : ¬ Delivers p proof data) : Phase p r proof secret (x.note (.received data)) := by
  unfold Phase at h ⊢
  rcases hstage with hstage | hstage
  · simp only [Exchange.note, hstage] at h ⊢
    obtain ⟨hverifying, hunsent, hnone⟩ := h
    refine ⟨hverifying, unsent_received hunsent, fun other hother => ?_⟩
    have hreceived := received_note x data
    simp only [Exchange.note] at hreceived
    rw [hreceived] at hother
    rcases List.mem_append.mp hother with hother | hother
    · exact hnone other hother
    · rw [List.mem_singleton.mp hother]
      exact hno
  · simp only [Exchange.note, hstage] at h ⊢
    exact h

theorem handleMessage_guarded (hw : Waits p r proof secret) (h : Guarded p r proof secret x)
    (hopen : x.settled = false) (data : Data) :
    Guarded p r proof secret (handleMessage p r (x.note (.received data)) data) := by
  obtain ⟨hlog, hphase, hstage⟩ := h.unsettled hopen
  have hhistory : History (Released p proof secret) (x.note (.received data)).log :=
    h.history.concat trivial
  unfold handleMessage
  split
  · exact (Guarded.reject hhistory _).close
  rename_i hstays
  cases data with
  | binary => exact .reject hhistory _
  | text value =>
    dsimp only
    split
    · exact (Guarded.reject hhistory _).close
    split
    · exact .reject hhistory _
    rename_i message hparse
    split
    · rename_i herror
      split
      · have hno : ¬ Delivers p proof (.text value) := by
          rintro ⟨_, other, hvalue, hother, hproof⟩
          cases hvalue
          obtain rfl : message = other := Option.some.inj (hparse.symm.trans hother)
          exact hw.type (Value.isText_unique (hw.typed message hproof) herror)
        refine ⟨hhistory, fun _ => ⟨?_, hphase.receive ?_ hno, hstage⟩⟩
        · simpa [Exchange.note] using hlog
        · by_contra hno
          exact hstays (not_or.mp hno)
      · exact .reject hhistory _
    split
    · exact .reject hhistory _
    rename_i hprotocol
    split
    · rename_i hawaiting
      split
      · exact (Guarded.reject hhistory _).close
      · rename_i htype
        simp only [Bool.not_eq_true', Bool.not_eq_false] at hprotocol htype
        rw [Phase, show x.stage = .awaitingProof from hawaiting] at hphase
        obtain ⟨-, hunsent, hnone⟩ := hphase
        refine ⟨hhistory, fun _ => ⟨?_, ?_, ?_⟩⟩
        · simpa [Exchange.note] using hlog
        · exact ⟨message, received x.log, value, rfl, received_note x _, hparse, hprotocol, htype,
            unsent_received hunsent, hnone⟩
        · intro hopens
          have hopening := hstage hopens
          rw [show x.stage = .awaitingProof from hawaiting] at hopening
          cases hopening
    · split
      · exact .reject hhistory _
      · split
        · exact .reject hhistory _
        · exact .finish hhistory _

theorem handleVerified_guarded (hw : Waits p r proof secret) (h : Guarded p r proof secret x)
    {message : Value} (hverifying : x.verifying = some message) (available throws : Bool) :
    Guarded p r proof secret (handleVerified r { x with verifying := none } message available throws) := by
  unfold handleVerified
  split
  · apply Guarded.close
    apply Guarded.reject
    exact h.history
  split
  · rename_i hsettled
    refine ⟨h.history, fun hopen => ?_⟩
    rw [hopen] at hsettled
    cases hsettled
  split
  · apply Guarded.close
    apply Guarded.reject
    exact h.history
  · rename_i secretRequest hbuild hopen _
    have hunsettled : x.settled = false := by
      simpa [Exchange.settled] using hopen
    obtain ⟨hlog, hphase, hstage⟩ := h.unsettled hunsettled
    obtain ⟨before, value, hverify, hreceived, hparse, hprotocol, htype, hunsent, hnone⟩ :=
      hphase.verifying hverifying
    have hproof : proof message := hw.build available message secretRequest hprotocol htype hbuild
    refine ⟨h.history.concat fun _ => ⟨?_, hlog, hunsent⟩, fun _ => ⟨?_, ⟨rfl, ?_⟩, ?_⟩⟩
    · exact ⟨before, .text value, [], hreceived, ⟨value, message, rfl, hparse, hproof⟩, by simpa using hnone⟩
    · simpa [Exchange.send, Exchange.note] using hlog
    · by_contra hopens
      have hopening := hstage (by simpa [Exchange.send, Exchange.note] using hopens)
      rw [hverify] at hopening
      cases hopening
    · intro hopens
      have hopening := hstage hopens
      rw [hverify] at hopening
      cases hopening

theorem Guarded.send {request : Object} (h : Guarded p r proof secret x) (hno : ¬ secret request) :
    Guarded p r proof secret (x.send request) := by
  refine ⟨h.history.concat fun hsecret => absurd hsecret hno, fun hopen => ?_⟩
  obtain ⟨hlog, hphase, hstage⟩ := h.unsettled hopen
  have hreceived : received (x.send request).log = received x.log := by
    simp [Exchange.send, Exchange.note, received, receivedData]
  have hunsent (h : Unsent secret x.log) : Unsent secret (x.send request).log := by
    intro other hmem
    rcases List.mem_append.mp hmem with hmem | hmem
    · exact h other hmem
    · simp only [List.mem_singleton, Observation.sent.injEq] at hmem
      rw [hmem]
      exact hno
  refine ⟨by simpa [Exchange.send, Exchange.note] using hlog, ?_, hstage⟩
  have hsame : (x.send request).stage = x.stage := rfl
  unfold Phase at hphase ⊢
  rw [hsame, hreceived]
  split at hphase
  · exact ⟨hphase.1, hunsent hphase.2.1, hphase.2.2⟩
  · exact ⟨hphase.1, hunsent hphase.2.1, hphase.2.2⟩
  · obtain ⟨message, before, value, hv, hr, hp, hprotocol, htype, hu, hn⟩ := hphase
    exact ⟨message, before, value, hv, hr, hp, hprotocol, htype, hunsent hu, hn⟩
  · exact hphase

theorem exchangeStep_guarded (hw : Waits p r proof secret) (h : Guarded p r proof secret x)
    (event : Event) : Guarded p r proof secret (exchangeStep p r x event) := by
  cases event with
  | verified available throws =>
    simp only [exchangeStep]
    cases hverifying : x.verifying with
    | none => exact h
    | some message => exact handleVerified_guarded hw h hverifying available throws
  | _ =>
    unfold exchangeStep
    dsimp only
    split
    · exact h
    rename_i hopen
    rw [Bool.not_eq_true] at hopen
    first
    | exact handleOpen_guarded hw h hopen _
    | exact handleMessage_guarded hw h hopen _
    | exact (Guarded.reject h.history _).close
    | exact .reject h.history _

theorem guarded_initial (p : Platform) (r : Options) (proof : Value → Prop) (secret : Object → Prop) :
    Guarded p r proof secret {} where
  history := .nil
  unsettled _ := ⟨by simp, ⟨rfl, by simp [Unsent], by simp [received]⟩, fun _ => rfl⟩

theorem run_guarded (hw : Waits p r proof secret) (events : List Event) :
    Guarded p r proof secret (Exchange.run p r events) := by
  unfold Exchange.run
  induction events using List.reverseRecOn with
  | nil => exact guarded_initial p r proof secret
  | append_singleton events event ih =>
    rw [List.foldl_append]
    exact exchangeStep_guarded hw ih event

end Exchange

section Unproved
variable {p : Platform} {r : Options} {x : Exchange}

/-- Nothing but the first message has been sent. -/
def FirstOnly (r : Options) (x : Exchange) : Prop := ∀ request, .sent request ∈ x.log → request = r.challenge

theorem FirstOnly.quiet {y : Exchange} (h : FirstOnly r x) (o : Observation)
    (hlog : y.log = x.log ∨ y.log = x.log ++ [o]) (ho : ∀ request, o ≠ .sent request) :
    FirstOnly r y := by
  intro request hmem
  rcases hlog with hlog | hlog
  · rw [hlog] at hmem
    exact h request hmem
  · rw [hlog] at hmem
    rcases List.mem_append.mp hmem with hmem | hmem
    · exact h request hmem
    · exact absurd (List.mem_singleton.mp hmem).symm (ho request)

theorem FirstOnly.finish (h : FirstOnly r x) (outcome : Outcome) : FirstOnly r (x.finish outcome) := by
  unfold Exchange.finish
  split
  · exact h
  · exact h.quiet .settled (.inr rfl) nofun

theorem FirstOnly.reject (h : FirstOnly r x) (failure : Failure) : FirstOnly r (x.reject failure) :=
  h.finish _

theorem FirstOnly.close (h : FirstOnly r x) : FirstOnly r x.closeSocket := h

theorem handleOpen_first (h : FirstOnly r x) (throws : Bool) : FirstOnly r (handleOpen r x throws) := by
  unfold handleOpen
  split
  · exact h
  dsimp only
  split
  · apply FirstOnly.close
    apply FirstOnly.reject
    exact h
  · intro request hmem
    rcases List.mem_append.mp hmem with hmem | hmem
    · exact h request hmem
    · exact (Observation.sent.injEq _ _).mp (List.mem_singleton.mp hmem)

theorem handleMessage_first (h : FirstOnly r x) (data : Data) :
    FirstOnly r (handleMessage p r x data) := by
  unfold handleMessage
  split
  · exact (h.reject _).close
  cases data with
  | binary => exact h.reject _
  | text value =>
    dsimp only
    split
    · exact (h.reject _).close
    split
    · exact h.reject _
    split
    · split
      · exact h
      · exact h.reject _
    split
    · exact h.reject _
    split
    · split
      · exact (h.reject _).close
      · exact h
    split
    · exact h.reject _
    split
    · exact h.reject _
    · exact h.finish _

/-- An exchange that has nothing to send for a proof sends its first message only. -/
theorem run_first (hunproved : ∀ available message, ∃ failure,
      r.buildSecretRequest available message = .error failure) (events : List Event) :
    FirstOnly r (Exchange.run p r events) := by
  unfold Exchange.run
  induction events using List.reverseRecOn with
  | nil => exact fun _ hmem => by cases hmem
  | append_singleton events event ih =>
    rw [List.foldl_append, List.foldl_cons, List.foldl_nil]
    cases event with
    | verified available throws =>
      simp only [exchangeStep]
      split
      · exact ih
      · rename_i message _
        obtain ⟨failure, hfailure⟩ := hunproved available message
        rw [handleVerified, hfailure]
        apply FirstOnly.close
        apply FirstOnly.reject
        exact ih
    | _ =>
      unfold exchangeStep
      dsimp only
      split
      · exact ih
      first
      | exact handleOpen_first ih _
      | exact handleMessage_first (ih.quiet (.received _) (.inr rfl) nofun) _
      | exact (ih.reject _).close

theorem FirstOnly.released {proof : Value → Prop} {secret : Object → Prop} (h : FirstOnly r x)
    (hfirst : ¬ secret r.challenge) : History (Released p proof secret) x.log := by
  intro before o after hlog
  cases o with
  | sent request =>
    have hsent : .sent request ∈ x.log := by simp [hlog]
    rw [h request hsent]
    exact fun hsecret => absurd hsecret hfirst
  | _ => trivial

end Unproved

section Requests
variable {p : Platform}

theorem testedText_ok {message : Value} {name : String} {test : Bytes → Bool} {text : Bytes}
    (h : testedText message name test = .ok text) :
    Value.textOr "" (message.member name) = some text ∧ test text = true := by
  unfold testedText at h
  split at h
  · cases h
  split at h
  · rename_i htext htest
    cases h
    exact ⟨htext, htest⟩
  · cases h

theorem bind_ok {ε α β : Type} {x : Except ε α} {f : α → Except ε β} {b : β}
    (h : (x >>= f) = .ok b) : ∃ a, x = .ok a ∧ f a = .ok b := by
  cases x with
  | error e => cases h
  | ok a => exact ⟨a, rfl, h⟩

theorem scripted_ok {α : Type} {x : Except String α} {a : α} (h : scripted x = .ok a) : x = .ok a := by
  cases x with
  | error text => cases h
  | ok b =>
    cases h
    rfl

theorem computeAuthProof_ok {credential expected : Bytes} {c : AuthChallenge}
    (h : computeAuthProof p credential c = .ok expected) : ∃ keyBytes canonical,
      hexToBytes credential 32 "长期凭据格式无效" = .ok keyBytes ∧
      createAuthProofMessage c = .ok canonical ∧ expected = hmacSha256Hex p keyBytes canonical := by
  obtain ⟨keyBytes, hkey, h⟩ := bind_ok h
  obtain ⟨canonical, hmessage, h⟩ := bind_ok h
  cases h
  exact ⟨keyBytes, canonical, hkey, hmessage, rfl⟩

theorem buildAuthRequest_ok {credential : Bytes} {c : AuthChallenge} {available : Bool}
    {message : Value} {request : Object}
    (hprotocol : message.isNumber "protocol" (.integer directProtocol) = true)
    (htype : message.isText "type" (ascii "auth_proof") = true)
    (h : buildAuthRequest p credential c available message = .ok request) :
    ProvesCredential p credential c message := by
  unfold buildAuthRequest at h
  split at h
  · cases h
  rename_i hfields
  simp only [not_or, Bool.not_eq_true', Bool.not_eq_false] at hfields
  obtain ⟨hmode, hsender, hdevice, hepoch, hnonce, -⟩ := hfields
  obtain ⟨given, hgiven, h⟩ := bind_ok h
  obtain ⟨expected, hexpected, h⟩ := bind_ok h
  obtain ⟨keyBytes, canonical, hkey, hmessage, rfl⟩ := computeAuthProof_ok (scripted_ok hexpected)
  split at h
  · cases h
  split at h
  · cases h
  rename_i hequal
  simp only [Bool.not_eq_true', Bool.not_eq_false] at hequal
  obtain ⟨rfl, -⟩ := (constantTimeEqualProof_iff _ _).mp hequal
  exact ⟨hprotocol, htype, hmode, hsender, hdevice, hepoch, hnonce, keyBytes, canonical, hkey,
    hmessage, (testedText_ok hgiven).1⟩

theorem computePairProof_ok {token expected : Bytes} {c : PairChallenge}
    (h : computePairProof p token c = .ok expected) : ∃ keyBytes canonical,
      hexToBytes token 32 "配对令牌格式无效" = .ok keyBytes ∧
      createPairProofMessage c = .ok canonical ∧ expected = hmacSha256Hex p keyBytes canonical := by
  obtain ⟨keyBytes, hkey, h⟩ := bind_ok h
  obtain ⟨canonical, hmessage, h⟩ := bind_ok h
  cases h
  exact ⟨keyBytes, canonical, hkey, hmessage, rfl⟩

theorem buildPairRequest_ok {authorization : Authorization} {senderId nonce : Bytes}
    {available : Bool} {message : Value} {request : Object}
    (hprotocol : message.isNumber "protocol" (.integer directProtocol) = true)
    (htype : message.isText "type" (ascii "pair_proof") = true)
    (h : buildPairRequest p authorization senderId nonce available message = .ok request) :
    ProvesToken p authorization senderId nonce message := by
  unfold buildPairRequest at h
  split at h
  · cases h
  rename_i hfields
  simp only [not_or, Bool.not_eq_true', Bool.not_eq_false] at hfields
  obtain ⟨hmode, hproofMode, hsession, hsender, hnonce⟩ := hfields
  obtain ⟨deviceId, hdevice, h⟩ := bind_ok h
  obtain ⟨given, hgiven, h⟩ := bind_ok h
  obtain ⟨expected, hexpected, h⟩ := bind_ok h
  obtain ⟨keyBytes, canonical, hkey, hmessage, rfl⟩ := computePairProof_ok (scripted_ok hexpected)
  split at h
  · cases h
  split at h
  · cases h
  rename_i hequal
  simp only [Bool.not_eq_true', Bool.not_eq_false] at hequal
  obtain ⟨rfl, -⟩ := (constantTimeEqualProof_iff _ _).mp hequal
  exact ⟨hprotocol, htype, hmode, hproofMode, hsession, hsender, hnonce, deviceId, keyBytes,
    canonical, (testedText_ok hdevice).1, hkey, hmessage, (testedText_ok hgiven).1⟩

/-- What may be sent at any time. -/
def Public (challenge request : Object) : Prop :=
  request = challenge ∨ (∃ now, request = ping now) ∨ request = closeRequest

theorem connect_waits (c : DirectReceiverConnection) (nonce : Bytes) :
    Waits p (connectOptions p c nonce)
      (ProvesCredential p c.trustedDevice.credential (c.challenge nonce))
      (fun request => ¬ Public (authChallenge (c.challenge nonce)) request) where
  proved := rfl
  challenge := not_not.mpr (.inl rfl)
  type := by
    simp only [connectOptions]
    decide
  typed _ h := h.type
  build _ _ _ hprotocol htype h := buildAuthRequest_ok hprotocol htype h

theorem pair_waits (authorization : Authorization) (senderId nonce : Bytes) :
    Waits p (pairOptions p authorization senderId nonce)
      (ProvesToken p authorization senderId nonce)
      (fun request => ¬ Public (pairChallenge authorization senderId nonce) request) where
  proved := rfl
  challenge := not_not.mpr (.inl rfl)
  type := by
    simp only [pairOptions]
    decide
  typed _ h := h.type
  build _ _ _ hprotocol htype h := buildPairRequest_ok hprotocol htype h

end Requests

section Connections
variable {p : Platform} {c : DirectReceiverConnection} {nonce : Bytes} {k : Connect}

theorem settle_log (c : DirectReceiverConnection) (k : Connect) :
    ∃ closed, (k.settle c).exchange = { k.exchange with closed := closed } := by
  unfold Connect.settle
  split
  · exact ⟨true, rfl⟩
  · split
    · exact ⟨true, rfl⟩
    · exact ⟨k.exchange.closed, rfl⟩
  · exact ⟨k.exchange.closed, rfl⟩

theorem connectStep_guarded {proof : Value → Prop}
    (hw : Waits p (connectOptions p c nonce) proof
      (fun request => ¬ Public (authChallenge (c.challenge nonce)) request))
    (h : Guarded p (connectOptions p c nonce) proof
      (fun request => ¬ Public (authChallenge (c.challenge nonce)) request) k.exchange)
    (event : ConnectEvent) :
    Guarded p (connectOptions p c nonce) proof
      (fun request => ¬ Public (authChallenge (c.challenge nonce)) request)
      (k.step p c nonce event).exchange := by
  cases event with
  | exchange event =>
    have hstep := exchangeStep_guarded hw h event
    simp only [Connect.step]
    split
    · exact h
    · obtain ⟨closed, hclosed⟩ := settle_log c { k with exchange := exchangeStep p _ k.exchange _ }
      rw [hclosed]
      exact ⟨hstep.history, hstep.unsettled⟩
  | heartbeat isOpen now =>
    simp only [Connect.step]
    split
    · exact h.send (not_not.mpr (.inr (.inl ⟨now, rfl⟩)))
    · exact h
  | close isOpen =>
    simp only [Connect.step]
    split
    · exact h
    · split
      · exact (h.send (not_not.mpr (.inr (.inr rfl)))).close
      · exact h.close

theorem connect_guarded (events : List ConnectEvent) :
    Guarded p (connectOptions p c nonce)
      (ProvesCredential p c.trustedDevice.credential (c.challenge nonce))
      (fun request => ¬ Public (authChallenge (c.challenge nonce)) request)
      (Connect.run p c nonce events).exchange := by
  unfold Connect.run
  induction events using List.reverseRecOn with
  | nil => exact guarded_initial p _ _ _
  | append_singleton events event ih =>
    rw [List.foldl_append]
    exact connectStep_guarded (connect_waits c nonce) ih event

end Connections

theorem auth_public (challenge : AuthChallenge) {request : Object} (value : Value)
    (h : Public (authChallenge challenge) request) : ("credential", value) ∉ request := by
  rcases h with rfl | ⟨now, rfl⟩ | rfl
  · simp [authChallenge]
  · simp [ping]
  · simp [closeRequest]

theorem pair_public (authorization : Authorization) (senderId nonce : Bytes) {request : Object}
    (value : Value) (h : Public (pairChallenge authorization senderId nonce) request) :
    ("token", value) ∉ request := by
  rcases h with rfl | ⟨now, rfl⟩ | rfl
  · simp [pairChallenge]
  · simp [ping]
  · simp [closeRequest]

/-- With a numeric host nothing is sent behind the first message. -/
theorem pair_guarded (p : Platform) (host : Text) (authorization : Authorization)
    (senderId nonce : Bytes) (events : List Event) :
    History (Released p (ProvesToken p authorization senderId nonce)
      fun request => ¬ Public (pairReceiverOptions p host authorization senderId nonce).challenge request)
      (Exchange.run p (pairReceiverOptions p host authorization senderId nonce) events).log := by
  by_cases hdefault : host = defaultReceiverHost
  · rw [pairReceiverOptions, if_pos hdefault]
    exact (run_guarded (pair_waits authorization senderId nonce) events).history
  · rw [pairReceiverOptions, if_neg hdefault]
    have hunproved (available : Bool) (message : Value) : ∃ failure,
        (pairManualOptions authorization senderId host).buildSecretRequest available message =
          .error failure := ⟨.script, rfl⟩
    exact (run_first hunproved events).released (not_not.mpr (.inl rfl))

/-- Whatever happens on the socket, a message other than the challenge, a ping and the farewell
is sent at most once: when exactly one message so far was the proof, and before the exchange has
settled. Under the default name, and in an authentication, these others do not bear the secret. -/
theorem secret_released_once (p : Platform) :
    (∀ (c : DirectReceiverConnection) (nonce : Bytes),
      (∀ request value, Public (authChallenge (c.challenge nonce)) request →
        ("credential", value) ∉ request) ∧
      ∀ events : List ConnectEvent,
        History (Released p (ProvesCredential p c.trustedDevice.credential (c.challenge nonce))
          fun request => ¬ Public (authChallenge (c.challenge nonce)) request)
          (Connect.run p c nonce events).exchange.log) ∧
    ∀ (host : Text) (authorization : Authorization) (senderId nonce : Bytes),
      (host = defaultReceiverHost → ∀ request value,
        Public (pairReceiverOptions p host authorization senderId nonce).challenge request →
        ("token", value) ∉ request) ∧
      ∀ events : List Event,
        History (Released p (ProvesToken p authorization senderId nonce) fun request =>
          ¬ Public (pairReceiverOptions p host authorization senderId nonce).challenge request)
          (Exchange.run p (pairReceiverOptions p host authorization senderId nonce) events).log := by
  refine ⟨fun c nonce => ⟨fun _ value => auth_public _ value, fun events =>
    (connect_guarded events).history⟩, fun host authorization senderId nonce =>
      ⟨fun hdefault request value hpublic => ?_, pair_guarded p host authorization senderId nonce⟩⟩
  rw [pairReceiverOptions, if_pos hdefault] at hpublic
  exact pair_public authorization senderId nonce value hpublic

end HarmonyScreen.Proofs.SecretRelease
