import HarmonyScreen.Link.Conversation
import HarmonyScreen.Proofs.Effects

namespace HarmonyScreen.Proofs.Serving
open Lib Program Receiver Receiver.ReceiverSession Link Effects

section Replies

/-- A reply, or an attempt at one. -/
def isReply : Receiver.Observation → Bool
  | .reply _ _ => true
  | _ => false

def lostReply : Receiver.Observation → Option Reply
  | .reply r false => some r
  | _ => none

/-- What was said since the connection was accepted. -/
def said (begun : Nat) (s : ReceiverSession) : List Reply := wholeReplies (s.log.drop begun)

/-- The replies that did not go out whole. -/
def lost (begun : Nat) (s : ReceiverSession) : List Reply := (s.log.drop begun).filterMap lostReply

/-- Nothing was replied meanwhile. -/
def Quietly (s t : ReceiverSession) : Prop :=
  ∃ os, t.log = s.log ++ os ∧ ∀ o ∈ os, isReply o = false

variable {begun : Nat} {s t : ReceiverSession}

theorem Quietly.of_log (h : t.log = s.log) : Quietly s t := ⟨[], by simp [h], by simp⟩

theorem Quietly.trans {u : ReceiverSession} (h : Quietly s t) (k : Quietly t u) : Quietly s u := by
  obtain ⟨os, hlog, hos⟩ := h
  obtain ⟨ps, klog, kos⟩ := k
  refine ⟨os ++ ps, by rw [klog, hlog, List.append_assoc], fun o ho => ?_⟩
  exact (List.mem_append.mp ho).elim (hos o) (kos o)

theorem silent {os : List Receiver.Observation} (h : ∀ o ∈ os, isReply o = false) :
    os.filterMap wholeReply = [] ∧ os.filterMap lostReply = [] := by
  have hnone : ∀ o ∈ os, wholeReply o = none ∧ lostReply o = none := by
    intro o ho
    have hreply := h o ho
    cases o with
    | reply r whole => cases hreply
    | _ => exact ⟨rfl, rfl⟩
  exact ⟨List.filterMap_eq_nil_iff.mpr fun o ho => (hnone o ho).1,
    List.filterMap_eq_nil_iff.mpr fun o ho => (hnone o ho).2⟩

theorem Quietly.replies (h : Quietly s t) (begun : Nat) : said begun t = said begun s ∧
    lost begun t = lost begun s := by
  obtain ⟨os, hlog, hos⟩ := h
  have hlater : ∀ o ∈ os.drop (begun - s.log.length), isReply o = false :=
    fun o ho => hos o (List.mem_of_mem_drop ho)
  rw [Serving.said, Serving.said, lost, lost, wholeReplies, wholeReplies, hlog,
    List.drop_append, List.filterMap_append, List.filterMap_append, (silent hlater).1,
    (silent hlater).2, List.append_nil, List.append_nil]
  exact ⟨rfl, rfl⟩

/-- What was said grows with the log. -/
theorem said_prefix (h : s.log <+: t.log) : said begun s <+: said begun t :=
  (h.drop begun).filterMap wholeReply

/-- A thread that may learn what is offered, that is alone with `view`, and that says only what `I`
admits. -/
def serving {α : Type} (begun : Nat) (view : ReceiverSession → α) (offers : External → Prop)
    (I : α → List Reply → Prop) : Discipline Unit ReceiverSession External where
  invariant s := begun ≤ s.log.length ∧ I (view s) (said begun s)
  offers _ _ e := offers e
  rely _ s t := view t = view s ∧ Quietly s t
  guarantee _ s t := s.log <+: t.log
  refl _ _ := ⟨rfl, .of_log rfl⟩
  trans _ _ _ _ h k := ⟨k.1.trans h.1, h.2.trans k.2⟩
  compatible h := absurd rfl h

variable {α β : Type} {view : ReceiverSession → α} {offers : External → Prop}
  {I : α → List Reply → Prop}

/-- An assertion about what the thread is alone with and what it has said. -/
def About (begun : Nat) (view : ReceiverSession → α) (P : α → List Reply → List Reply → Prop)
    (s : ReceiverSession) : Prop := P (view s) (said begun s) (lost begun s)

variable {P Q : α → List Reply → List Reply → Prop}

theorem About.stable : (serving begun view offers I).Stable () (About begun view P) := by
  intro s t hs ht _
  obtain ⟨hsaid, hlost⟩ := ht.2.replies begun
  rwa [About, ht.1, hsaid, hlost]

theorem quietly_keeps (hs : (serving begun view offers I).invariant s) (hview : view t = view s)
    (h : Quietly s t) : (serving begun view offers I).invariant t ∧ s.log <+: t.log ∧
      (About begun view P s → About begun view P t) := by
  obtain ⟨hsaid, hlost⟩ := h.replies begun
  obtain ⟨os, hlog, hos⟩ := h
  have hprefix : s.log <+: t.log := ⟨os, hlog.symm⟩
  refine ⟨⟨hs.1.trans hprefix.length_le, ?_⟩, hprefix, fun hp => ?_⟩
  · rw [hview, hsaid]
    exact hs.2
  · rwa [About, hview, hsaid, hlost]

/-- Programs that leave the view alone and say nothing. -/
theorem quiet_outline {p : Session β}
    (hp : p.Every fun s t => view t = view s ∧ Quietly s t) :
    (serving begun view offers I).Outline () (About begun view P) p fun _ => About begun view P := by
  induction p with
  | ret a => exact .ret a About.stable fun _ _ h => h
  | atomic ready act next ih =>
    refine .atomic About.stable fun e s hs hP _ go => ?_
    obtain ⟨⟨hview, hquiet⟩, hnext⟩ := hp s e go
    obtain ⟨hkeep, hprefix, habout⟩ := quietly_keeps (P := P) hs hview hquiet
    exact ⟨hkeep, hprefix, ih e s hnext (act e s) hkeep (habout hP)⟩

/-- A section that reads what the thread is alone with. -/
theorem load_outline {read : ReceiverSession → β} {R : β → Prop}
    (h : ∀ s, About begun view P s → R (read s)) :
    (serving begun view offers I).Outline () (About begun view P) (load read)
      fun a s => R a ∧ About begun view P s := by
  refine .critical About.stable (fun a => ?_) fun e s hs hP _ => ?_
  · intro s t hs ht hi
    exact ⟨hs.1, About.stable s t hs.2 ht hi⟩
  · exact ⟨hs, List.prefix_refl _, h s hP, hP⟩

/-- A section that says nothing. -/
theorem silent_outline {f : External → ReceiverSession → β × ReceiverSession}
    {Q : β → α → List Reply → List Reply → Prop}
    (h : ∀ e s, offers e → I (view s) (said begun s) → About begun view P s →
      Quietly s (f e s).2 ∧ I (view (f e s).2) (said begun s) ∧
        Q (f e s).1 (view (f e s).2) (said begun s) (lost begun s)) :
    (serving begun view offers I).Outline () (About begun view P) (critical f)
      fun a => About begun view (Q a) := by
  refine .critical About.stable (fun a => About.stable) fun e s hs hP he => ?_
  obtain ⟨hquiet, hinvariant, hQ⟩ := h e s he hs.2 hP
  obtain ⟨hsaid, hlost⟩ := hquiet.replies begun
  obtain ⟨os, hlog, -⟩ := hquiet
  have hprefix : s.log <+: (f e s).2.log := ⟨os, hlog.symm⟩
  refine ⟨⟨hs.1.trans hprefix.length_le, ?_⟩, hprefix, ?_⟩
  · rwa [hsaid]
  · rwa [About, hsaid, hlost]

/-- A reply behind what is noted with it. -/
theorem replies_concat {notes : List Receiver.Observation} (hbegun : begun ≤ s.log.length)
    (hnotes : ∀ o ∈ notes, isReply o = false) (reply : Reply) (whole : Bool)
    (hlog : t.log = s.log ++ notes ++ [.reply reply whole]) :
    said begun t = said begun s ++ (if whole then [reply] else []) ∧
      lost begun t = lost begun s ++ (if whole then [] else [reply]) := by
  obtain ⟨hsaid, hlost⟩ := silent hnotes
  have hdrop : t.log.drop begun = s.log.drop begun ++ (notes ++ [.reply reply whole]) := by
    rw [hlog, List.append_assoc, List.drop_append, Nat.sub_eq_zero_of_le hbegun, List.drop_zero]
  rw [said, said, lost, lost, wholeReplies, wholeReplies, hdrop, List.filterMap_append,
    List.filterMap_append, List.filterMap_append, List.filterMap_append, hsaid, hlost]
  cases whole <;> exact ⟨rfl, rfl⟩

/-- A reply, whole or not. -/
theorem send_outline {notes : List Receiver.Observation} (hnotes : ∀ o ∈ notes, isReply o = false)
    (hview : ∀ s log, view { s with log := log } = view s) (reply : Reply)
    {Q : Bool → α → List Reply → List Reply → Prop}
    (whole : ∀ v spoken missed, I v spoken → P v spoken missed →
      I v (spoken ++ [reply]) ∧ Q true v (spoken ++ [reply]) missed)
    (failed : ∀ v spoken missed, I v spoken → P v spoken missed →
      Q false v spoken (missed ++ [reply])) :
    (serving begun view offers I).Outline () (About begun view P) (sendNoted notes reply)
      fun sent => About begun view (Q sent) := by
  refine .critical About.stable (fun sent => About.stable) fun e s hs hP _ => ?_
  dsimp only
  have hlog : ({ s with
      log := s.log ++ notes ++ [.reply reply (s.sendsWhole e reply.text)] } : ReceiverSession).log =
        s.log ++ notes ++ [.reply reply (s.sendsWhole e reply.text)] := rfl
  obtain ⟨hsaid, hlost⟩ := replies_concat hs.1 hnotes reply _ hlog
  have hprefix : s.log <+: s.log ++ notes ++ [.reply reply (s.sendsWhole e reply.text)] := by
    rw [List.append_assoc]
    exact List.prefix_append _ _
  refine ⟨⟨hs.1.trans hprefix.length_le, ?_⟩, hprefix, ?_⟩
  · rw [hview, hsaid]
    cases hwhole : s.sendsWhole e reply.text with
    | true => exact (whole _ _ _ hs.2 hP).1
    | false => simpa using hs.2
  · rw [About, hview, hsaid, hlost]
    cases hwhole : s.sendsWhole e reply.text with
    | true => simpa using (whole _ _ _ hs.2 hP).2
    | false => simpa using failed _ _ _ hs.2 hP

/-- A message is noted before it is handled. -/
theorem message_quiet (hview : ∀ s log, view { s with log := log } = view s)
    (message : WebSocket.Message) :
    (ReceiverSession.modify fun s => s.note (.message message s.source)).Every
      fun s t => view t = view s ∧ Quietly s t :=
  modify_every fun s => ⟨hview s _, [.message message s.source], rfl, by simp [isReply]⟩

end Replies

end HarmonyScreen.Proofs.Serving
