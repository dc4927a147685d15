import HarmonyScreen.Link.Conversation

namespace HarmonyScreen.Proofs.Conversing
open Lib Receiver Receiver.ReceiverSession Extension Extension.DirectClient Link

section Parts
variable {p : Platform} {r : Options} {begun : Nat} {offers : External → Prop}
  {other : ReceiverSession → ReceiverSession → Prop}

/-- The script keeps to these requests as long as it hears only what may be said. -/
structure Follows (p : Platform) (r : Options) (requests : List Bytes)
    (possible : List Reply → Prop) (C : Exchange → List Reply → Prop) : Prop where
  start : C {} []
  act : ∀ (a : Act) x hs, C x hs → C (exchangeStep p r x a.event) hs ∧
    sentTexts x.log <+: sentTexts (exchangeStep p r x a.event).log
  hear : ∀ x hs reply, C x hs → possible (hs ++ [reply]) →
    (hs ++ [reply]).length ≤ (sentTexts x.log).length →
    C (exchangeStep p r x (.message (.text reply.text))) (hs ++ [reply]) ∧
      sentTexts x.log <+: sentTexts (exchangeStep p r x (.message (.text reply.text))).log
  sent : ∀ x hs, C x hs → sentTexts x.log <+: requests

/-- The Receiver serves these requests one by one, and never says more than it was asked. `D n` is
what its thread keeps to with `n` of them taken up. -/
structure Serves (begun : Nat) (offers : External → Prop)
    (other : ReceiverSession → ReceiverSession → Prop) (requests : List Bytes)
    (possible : List Reply → Prop) (D : Nat → Discipline Unit ReceiverSession External)
    (S : Nat → Handled → ReceiverSession → Prop) : Prop where
  offers : ∀ n s e, offers e → (D n).offers () s e
  other : ∀ n s t, (D n).invariant s → other s t → (D n).rely () s t ∧ (D n).invariant t ∧
    wholeReplies (s.log.drop begun) <+: wholeReplies (t.log.drop begun)
  said : ∀ n s t, (D n).guarantee () s t →
    wholeReplies (s.log.drop begun) <+: wholeReplies (t.log.drop begun)
  possible : ∀ n s, (D n).invariant s → (wholeReplies (s.log.drop begun)).length ≤ n ∧
    ∀ replies, replies <+: wholeReplies (s.log.drop begun) → possible replies
  take : ∀ n s stage request, (D n).invariant s → S n (.next stage) s → requests[n]? = some request →
    (D (n + 1)).invariant s ∧
      (handleMessage stage ⟨.text, request⟩).Meets (D (n + 1)) () (S (n + 1)) s

variable {requests : List Bytes} {possible : List Reply → Prop}
  {C : Exchange → List Reply → Prop} {D : Nat → Discipline Unit ReceiverSession External}
  {S : Nat → Handled → ReceiverSession → Prop}

theorem next_request {taken sent : List Bytes} {request : Bytes} (h : taken ++ [request] <+: sent)
    (hsent : sent <+: requests) : requests[taken.length]? = some request := by
  obtain ⟨rest, rfl⟩ := h.trans hsent
  simp

theorem conversation_outline (hc : Follows p r requests possible C)
    (hs : Serves begun offers other requests possible D S) :
    (conversation p r begun offers other).Outline (fun ts => D ts.length) C fun ts => S ts.length where
  offers ts s e he := hs.offers _ s e he
  other ts s t hinvariant ht := hs.other _ s t hinvariant ht
  said ts s t hg := hs.said _ s t hg
  act a x heard hx := hc.act a x heard hx
  hear x heard ts s reply hx hinvariant htaken hnext := by
    obtain ⟨hcount, hpossible⟩ := hs.possible _ s hinvariant
    apply hc.hear x heard reply hx
    · exact hpossible _ hnext
    · exact (hnext.length_le.trans hcount).trans htaken.length_le
  take x heard ts s a handle request hx hinvariant hreturned hserves hnext hheard := by
    rw [List.length_append, List.length_singleton]
    cases a with
    | returned result => cases hserves
    | next stage =>
      obtain rfl := Option.some.inj hserves
      exact hs.take _ s stage request hinvariant hreturned (next_request hnext (hc.sent x heard hx))

/-- Every state of the conversation, from the moment the connection was accepted. -/
theorem conversation_kept (hc : Follows p r requests possible C)
    (hs : Serves begun offers other requests possible D S) {s : ReceiverSession}
    (hinvariant : (D 0).invariant s)
    (hstart : ∀ t, (D 0).rely () s t → (D 0).invariant t → S 0 (.next .initial) t)
    {m : Meeting}
    (hm : Dialogue.Reaches (conversation p r begun offers other) (Meeting.start s) m) :
    Dialogue.Kept (conversation p r begun offers other) (fun ts => D ts.length) C
      (fun ts => S ts.length) m := by
  refine hm.kept (conversation_outline hc hs) ⟨hc.start, ?_, hinvariant, List.nil_prefix, ?_⟩
  · exact hstart
  · exact List.nil_prefix

end Parts

section Scripts
variable {p : Platform} {r : Options} {x : Exchange} {text : Bytes} {message : Value}

/-- A text that the script takes up as this message, of this type. -/
structure Parsed (p : Platform) (text : Bytes) (type : String) (message : Value) : Prop where
  size : text.length ≤ directMaxControlTextBytes
  parse : p.parse text = some message
  type : message.isText "type" (ascii type) = true

theorem isText_other {key : String} {a b : Bytes} (h : message.isText key a = true) (hne : a ≠ b) :
    message.isText key b = false := by
  cases hb : message.isText key b with
  | false => rfl
  | true => exact absurd (Value.isText_unique h hb) hne

/-- What ends an exchange that waits for its result. -/
inductive Decided (p : Platform) (r : Options) (proof : Option Value) (text : Bytes) : Outcome → Prop where
  | refused {message : Value} {failure : Failure} (h : Parsed p text "error" message)
      (code : receiverError message = some failure) : Decided p r proof text (.rejected failure)
  | agreed {message : Value} (h : Parsed p text r.expectedType message)
      (protocol : message.isNumber "protocol" (.integer DirectProtocol.directProtocol) = true)
      (valid : r.validateFinal message proof = .ok ()) : Decided p r proof text (.resolved message)

theorem handleMessage_decided (hexpected : ascii r.expectedType ≠ ascii "error") {outcome : Outcome}
    (h : Decided p r x.proofMessage text outcome) (hstage : x.stage = .awaitingResult) :
    DirectClient.handleMessage p r x (.text text) = x.finish outcome := by
  cases h with
  | @refused message failure h code =>
    have hsize : controlMessageExceedsLimit text = false := by
      simpa [controlMessageExceedsLimit] using h.size
    simp [DirectClient.handleMessage, hstage, hsize, h.parse, h.type, code, Exchange.reject]
  | @agreed message h protocol valid =>
    have hsize : controlMessageExceedsLimit text = false := by
      simpa [controlMessageExceedsLimit] using h.size
    have herror := isText_other h.type hexpected
    simp [DirectClient.handleMessage, hstage, hsize, h.parse, h.type, herror, protocol, valid]

/-- The script has asked for a proof. -/
def asked (r : Options) : Exchange where
  stage := if r.skipProof then .awaitingResult else .awaitingProof
  opens := false
  log := [.sent r.challenge]

/-- It has got one and computes it itself. -/
def checking (r : Options) (proof : Bytes) (message : Value) : Exchange where
  stage := .verifyingProof
  opens := false
  proofMessage := some message
  verifying := some message
  log := [.sent r.challenge, .received (.text proof)]

/-- It has found it right. -/
def released (r : Options) (proof : Bytes) (message : Value) (secret : Object) : Exchange where
  stage := .awaitingResult
  opens := false
  proofMessage := some message
  log := [.sent r.challenge, .received (.text proof), .sent secret]

/-- An exchange that waits for its result has heard this. -/
def concluded (x : Exchange) (text : Bytes) (outcome : Outcome) : Exchange :=
  { x with outcome := some outcome, log := x.log ++ [.received (.text text), .settled] }

@[simp] theorem sentTexts_asked (r : Options) :
    sentTexts (asked r).log = [r.challenge.text] := rfl

@[simp] theorem sentTexts_checking (r : Options) (proof : Bytes) (message : Value) :
    sentTexts (checking r proof message).log = [r.challenge.text] := rfl

@[simp] theorem sentTexts_released (r : Options) (proof : Bytes) (message : Value) (secret : Object) :
    sentTexts (released r proof message secret).log = [r.challenge.text, secret.text] := rfl

@[simp] theorem sentTexts_concluded (x : Exchange) (text : Bytes) (outcome : Outcome) :
    sentTexts (concluded x text outcome).log = sentTexts x.log := by
  rw [concluded, sentTexts, List.filterMap_append]
  exact List.append_nil _

theorem opened_eq (r : Options) : exchangeStep p r {} Act.opened.event = asked r := by
  simp [exchangeStep, Act.event, handleOpen, Exchange.settled, Exchange.send, Exchange.note, asked]

/-- Once it has opened, and computes nothing, the script does nothing by itself. -/
theorem act_idle (hopens : x.opens = false) (hverifying : x.verifying = none) (a : Act) :
    exchangeStep p r x a.event = x := by
  cases a with
  | opened => simp [exchangeStep, Act.event, handleOpen, hopens]
  | verified => simp [exchangeStep, Act.event, hverifying]

theorem hear_decided (hexpected : ascii r.expectedType ≠ ascii "error") {outcome : Outcome}
    (h : Decided p r x.proofMessage text outcome) (hstage : x.stage = .awaitingResult)
    (hopen : x.outcome = none) :
    exchangeStep p r x (.message (.text text)) = concluded x text outcome := by
  have hsettled : x.settled = false := by simp [Exchange.settled, hopen]
  simp only [exchangeStep, hsettled, Bool.false_eq_true, if_false]
  have hnoted : Decided p r (x.note (.received (.text text))).proofMessage text outcome := h
  rw [handleMessage_decided hexpected hnoted hstage]
  simp [Exchange.finish, Exchange.settled, Exchange.note, hopen, concluded]

/-- What makes the script release its secret. -/
structure Proved (p : Platform) (r : Options) (proof : Bytes) (message : Value) (secret : Object) :
    Prop extends Parsed p proof r.proofType message where
  waits : r.skipProof = false
  known : ascii r.proofType ≠ ascii "error"
  protocol : message.isNumber "protocol" (.integer DirectProtocol.directProtocol) = true
  build : r.buildSecretRequest true message = .ok secret

variable {proof : Bytes} {secret : Object}

theorem hear_proof (h : Proved p r proof message secret) :
    exchangeStep p r (asked r) (.message (.text proof)) = checking r proof message := by
  have hsize : controlMessageExceedsLimit proof = false := by
    simpa [controlMessageExceedsLimit] using h.size
  have herror := isText_other h.type h.known
  simp [exchangeStep, Exchange.settled, asked, DirectClient.handleMessage, Exchange.note, h.waits,
    hsize, h.parse, herror, h.protocol, h.type, checking]

theorem verified_eq (h : Proved p r proof message secret) :
    exchangeStep p r (checking r proof message) Act.verified.event =
      released r proof message secret := by
  simp [exchangeStep, Act.event, checking, handleVerified, h.build, Exchange.settled, Exchange.send,
    Exchange.note, released]

/-- The states of an exchange that waits for a proof and then for its result. -/
inductive Proving (r : Options) (proof : Reply) (message : Value) (secret : Object)
    (final : Reply → Outcome → Prop) : Exchange → List Reply → Prop where
  | fresh : Proving r proof message secret final {} []
  | asked : Proving r proof message secret final (asked r) []
  | checking : Proving r proof message secret final (checking r proof.text message) [proof]
  | released : Proving r proof message secret final (released r proof.text message secret) [proof]
  | concluded (reply : Reply) (outcome : Outcome) (h : final reply outcome) :
      Proving r proof message secret final
        (concluded (Conversing.released r proof.text message secret) reply.text outcome)
        [proof, reply]

/-- Where it has an outcome, it has heard the proof and the reply that decides. -/
theorem Proving.decided {r : Options} {proof : Reply} {message : Value} {secret : Object}
    {final : Reply → Outcome → Prop} {x : Exchange} {heard : List Reply} {outcome : Outcome}
    (h : Proving r proof message secret final x heard) (houtcome : x.outcome = some outcome) :
    ∃ reply, final reply outcome ∧ heard = [proof, reply] := by
  cases h with
  | fresh | asked | checking | released => cases houtcome
  | concluded reply outcome hreply =>
    cases houtcome
    exact ⟨reply, hreply, rfl⟩

/-- What may be said to it. -/
def OfProving (proof : Reply) (final : Reply → Outcome → Prop) (replies : List Reply) : Prop :=
  replies = [] ∨ replies = [proof] ∨ ∃ reply outcome, final reply outcome ∧ replies = [proof, reply]

theorem OfProving.initial {proof : Reply} {final : Reply → Outcome → Prop} {replies all : List Reply}
    (h : OfProving proof final all) (hp : replies <+: all) : OfProving proof final replies := by
  rcases h with rfl | rfl | ⟨reply, outcome, hreply, rfl⟩
  · exact .inl (List.prefix_nil.mp hp)
  · rcases List.prefix_cons_iff.mp hp with rfl | ⟨rest, rfl, hrest⟩
    · exact .inl rfl
    · obtain rfl := List.prefix_nil.mp hrest
      exact .inr (.inl rfl)
  · rcases List.prefix_cons_iff.mp hp with rfl | ⟨rest, rfl, hrest⟩
    · exact .inl rfl
    rcases List.prefix_cons_iff.mp hrest with rfl | ⟨tail, rfl, htail⟩
    · exact .inr (.inl rfl)
    · obtain rfl := List.prefix_nil.mp htail
      exact .inr (.inr ⟨reply, outcome, hreply, rfl⟩)

theorem proving_follows {proof : Reply} {final : Reply → Outcome → Prop}
    (h : Proved p r proof.text message secret) (hexpected : ascii r.expectedType ≠ ascii "error")
    (hfinal : ∀ reply outcome, final reply outcome → Decided p r (some message) reply.text outcome) :
    Follows p r [r.challenge.text, secret.text] (OfProving proof final)
      (Proving r proof message secret final) where
  start := .fresh
  act a x heard hx := by
    cases hx with
    | fresh =>
      cases a with
      | opened =>
        rw [opened_eq]
        exact ⟨.asked, List.nil_prefix⟩
      | verified => exact ⟨.fresh, List.prefix_refl _⟩
    | asked =>
      rw [act_idle rfl rfl]
      exact ⟨.asked, List.prefix_refl _⟩
    | checking =>
      cases a with
      | opened =>
        have hsame : exchangeStep p r (Conversing.checking r proof.text message) Act.opened.event =
            Conversing.checking r proof.text message := by
          simp [exchangeStep, Act.event, handleOpen, Conversing.checking]
        rw [hsame]
        exact ⟨.checking, List.prefix_refl _⟩
      | verified =>
        rw [verified_eq h]
        exact ⟨.released, ⟨[secret.text], rfl⟩⟩
    | released =>
      rw [act_idle rfl rfl]
      exact ⟨.released, List.prefix_refl _⟩
    | concluded reply outcome hreply =>
      rw [act_idle rfl rfl]
      exact ⟨.concluded reply outcome hreply, List.prefix_refl _⟩
  hear x heard reply hx hpossible hcount := by
    cases hx with
    | fresh => simp [sentTexts] at hcount
    | asked =>
      rcases hpossible with hnone | hproof | ⟨other, outcome, -, hboth⟩
      · simp at hnone
      · obtain rfl : reply = proof := by simpa using hproof
        rw [hear_proof h]
        exact ⟨.checking, List.prefix_refl _⟩
      · simp at hboth
    | checking => simp at hcount
    | released =>
      rcases hpossible with hnone | hproof | ⟨other, outcome, hother, hboth⟩
      · simp at hnone
      · simp at hproof
      · obtain rfl : reply = other := by simpa using hboth
        rw [hear_decided hexpected (hfinal reply outcome hother) rfl rfl]
        exact ⟨.concluded reply outcome hother, by simp⟩
    | concluded => simp at hcount
  sent x heard hx := by
    cases hx with
    | fresh => exact List.nil_prefix
    | asked | checking | released | concluded => simp

/-- The states of an exchange that waits for its result at once. -/
inductive Asking (r : Options) (final : Reply → Outcome → Prop) : Exchange → List Reply → Prop where
  | fresh : Asking r final {} []
  | asked : Asking r final (asked r) []
  | concluded (reply : Reply) (outcome : Outcome) (h : final reply outcome) :
      Asking r final (concluded (Conversing.asked r) reply.text outcome) [reply]

theorem Asking.decided {r : Options} {final : Reply → Outcome → Prop} {x : Exchange}
    {heard : List Reply} {outcome : Outcome} (h : Asking r final x heard)
    (houtcome : x.outcome = some outcome) : ∃ reply, final reply outcome ∧ heard = [reply] := by
  cases h with
  | fresh | asked => cases houtcome
  | concluded reply outcome hreply =>
    cases houtcome
    exact ⟨reply, hreply, rfl⟩

/-- What may be said to it. -/
def OfAsking (final : Reply → Outcome → Prop) (replies : List Reply) : Prop :=
  replies = [] ∨ ∃ reply outcome, final reply outcome ∧ replies = [reply]

theorem OfAsking.initial {final : Reply → Outcome → Prop} {replies all : List Reply}
    (h : OfAsking final all) (hp : replies <+: all) : OfAsking final replies := by
  rcases h with rfl | ⟨reply, outcome, hreply, rfl⟩
  · exact .inl (List.prefix_nil.mp hp)
  · rcases List.prefix_cons_iff.mp hp with rfl | ⟨rest, rfl, hrest⟩
    · exact .inl rfl
    · obtain rfl := List.prefix_nil.mp hrest
      exact .inr ⟨reply, outcome, hreply, rfl⟩

theorem asking_follows {final : Reply → Outcome → Prop} (hskip : r.skipProof = true)
    (hexpected : ascii r.expectedType ≠ ascii "error")
    (hfinal : ∀ reply outcome, final reply outcome → Decided p r none reply.text outcome) :
    Follows p r [r.challenge.text] (OfAsking final) (Asking r final) where
  start := .fresh
  act a x heard hx := by
    cases hx with
    | fresh =>
      cases a with
      | opened =>
        rw [opened_eq]
        exact ⟨.asked, List.nil_prefix⟩
      | verified => exact ⟨.fresh, List.prefix_refl _⟩
    | asked =>
      rw [act_idle rfl rfl]
      exact ⟨.asked, List.prefix_refl _⟩
    | concluded reply outcome hreply =>
      rw [act_idle rfl rfl]
      exact ⟨.concluded reply outcome hreply, List.prefix_refl _⟩
  hear x heard reply hx hpossible hcount := by
    cases hx with
    | fresh => simp [sentTexts] at hcount
    | asked =>
      rcases hpossible with hnone | ⟨other, outcome, hother, hreply⟩
      · simp at hnone
      · obtain rfl : reply = other := by simpa using hreply
        have hstage : (asked r).stage = .awaitingResult := by simp [asked, hskip]
        rw [hear_decided hexpected (hfinal reply outcome hother) hstage rfl]
        exact ⟨.concluded reply outcome hother, by simp⟩
    | concluded => simp at hcount
  sent x heard hx := by
    cases hx with
    | fresh => exact List.nil_prefix
    | asked | concluded => simp

end Scripts

end HarmonyScreen.Proofs.Conversing
