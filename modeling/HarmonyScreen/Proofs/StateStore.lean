import HarmonyScreen.Extension.ServiceWorker
import Mathlib.Data.List.Permutation

namespace HarmonyScreen.Proofs.StateStore
open Lib
open Lib.Updates
open Extension
open Extension.ServiceWorker

section Discipline

/-- What a thread may rely on: the others make their own calls, do not end its turn in the
queue, and replace what it has read only by a plain write. -/
structure Others (i : Nat) (s t : Worker) : Prop where
  log : ∃ more, t.log = s.log ++ more ∧ ∀ e ∈ more, e.call.1 ≠ i
  queue : ∃ more, t.updateQueue = s.updateQueue ++ more
  settled : s.updateQueue[s.settled]? = some i → t.settled = s.settled
  stored : s.updateQueue[s.settled]? = some i → Orderly t.log →
    ∀ c, c.1 = i → Reading s.log c → t.stored = s.stored

/-- What a section of a thread does. -/
structure Own (i : Nat) (s t : Worker) : Prop where
  log : ∃ more, t.log = s.log ++ more ∧ ∀ e ∈ more, e.call.1 = i
  queue : ∃ more, t.updateQueue = s.updateQueue ++ more
  settled : t.settled = s.settled ∨ s.updateQueue[s.settled]? = some i
  stored : t.stored = s.stored ∨ s.updateQueue[s.settled]? = some i ∨
    ∃ c create learned, t.log = s.log ++ [.wrote c (.write create) learned]

variable {i j : Nat} {s t u : Worker}

theorem Others.refl (i : Nat) (s : Worker) : Others i s s where
  log := ⟨[], (List.append_nil _).symm, fun _ he => (nomatch he)⟩
  queue := ⟨[], (List.append_nil _).symm⟩
  settled _ := rfl
  stored _ _ _ _ _ := rfl

theorem Own.refl (i : Nat) (s : Worker) : Own i s s where
  log := ⟨[], (List.append_nil _).symm, fun _ he => (nomatch he)⟩
  queue := ⟨[], (List.append_nil _).symm⟩
  settled := .inl rfl
  stored := .inl rfl

theorem place_append {queue more : List Nat} {k : Nat} (h : queue[k]? = some i) :
    (queue ++ more)[k]? = some i := by
  obtain ⟨hk, -⟩ := List.getElem?_eq_some_iff.mp h
  rwa [List.getElem?_append_left hk]

theorem Others.trans (h : Others i s t) (h' : Others i t u) : Others i s u := by
  obtain ⟨more, hlog, hother⟩ := h.log
  obtain ⟨more', hlog', hother'⟩ := h'.log
  obtain ⟨queued, hqueue⟩ := h.queue
  obtain ⟨queued', hqueue'⟩ := h'.queue
  have hturn : s.updateQueue[s.settled]? = some i → t.updateQueue[t.settled]? = some i := by
    intro hs
    rw [h.settled hs, hqueue]
    exact place_append hs
  refine ⟨⟨more ++ more', ?_, fun e he => ?_⟩, ⟨queued ++ queued', ?_⟩, fun hs => ?_, ?_⟩
  · rw [hlog', hlog, List.append_assoc]
  · exact (List.mem_append.mp he).elim (hother e) (hother' e)
  · rw [hqueue', hqueue, List.append_assoc]
  · rw [h'.settled (hturn hs), h.settled hs]
  · intro hs horderly c hc hreading
    have hlater : Reading t.log c :=
      hlog ▸ hreading.other fun e he heq => hother e he (heq ▸ hc)
    rw [h'.stored (hturn hs) horderly c hc hlater]
    exact h.stored hs (hlog' ▸ horderly).before c hc hreading

theorem Own.others (h : Own i s t) (hne : i ≠ j) : Others j s t := by
  obtain ⟨more, hlog, hown⟩ := h.log
  refine ⟨⟨more, hlog, fun e he heq => hne ((hown e he).symm.trans heq)⟩, h.queue, ?_, ?_⟩
  · intro hs
    rcases h.settled with hsame | hturn
    · exact hsame
    · rw [hturn] at hs
      exact absurd (Option.some.inj hs) hne
  · intro hs horderly c hc hreading
    rcases h.stored with hsame | hturn | ⟨c', create, learned, hwrite⟩
    · exact hsame
    · rw [hturn] at hs
      exact absurd (Option.some.inj hs) hne
    · rw [hwrite] at horderly
      exact absurd hreading (horderly.now c)

def discipline (initial : Stored) : Discipline Nat Worker Outside where
  invariant s := Kept initial s.stored s.log
  offers _ _ _ := True
  rely := Others
  guarantee := Own
  refl := Others.refl
  trans _ := Others.trans
  compatible hne _ h := h.others hne

end Discipline

section Assertions
variable {initial : Stored} {i k : Nat} {c : Call} {s t : Worker}
  {l : List (Event Stored Int)} {value : Stored}

/-- The update of a call has its turn in the queue and has done `l` so far. -/
def HasTurn (i k : Nat) (c : Call) (l : List (Event Stored Int)) (s : Worker) : Prop :=
  c.1 = i ∧ eventsOf c s.log = l ∧ s.updateQueue[k]? = some i ∧ s.settled = k

/-- It has read the value, which is still stored unless a plain write came between. -/
def HasRead (i k : Nat) (c : Call) (mutator : Int → State → Except String State) (value : Stored)
    (s : Worker) : Prop :=
  HasTurn i k c [.called c (updateOf mutator), .read c] s ∧ (Orderly s.log → s.stored = value)

theorem eventsOf_others {log more : List (Event Stored Int)} (hc : c.1 = i)
    (h : ∀ e ∈ more, e.call.1 ≠ i) : eventsOf c (log ++ more) = eventsOf c log := by
  have hnone : eventsOf c more = [] := by
    apply List.filter_eq_nil_iff.mpr
    intro e he heq
    exact h e he (beq_iff_eq.mp heq ▸ hc)
  rw [eventsOf_append, hnone, List.append_nil]

theorem stable_turn : (discipline initial).Stable i (HasTurn i k c l) := by
  rintro s t ⟨hc, hevents, hplace, hsettled⟩ hrely -
  obtain ⟨more, hlog, hother⟩ := hrely.log
  obtain ⟨queued, hqueue⟩ := hrely.queue
  refine ⟨hc, ?_, ?_, ?_⟩
  · rw [hlog, eventsOf_others hc hother, hevents]
  · rw [hqueue]
    exact place_append hplace
  · rw [hrely.settled (by rw [hsettled]; exact hplace), hsettled]

theorem stable_read {mutator : Int → State → Except String State} :
    (discipline initial).Stable i (HasRead i k c mutator value) := by
  rintro s t ⟨hturn, hstored⟩ hrely hi
  refine ⟨stable_turn s t hturn hrely hi, fun horderly => ?_⟩
  obtain ⟨hc, hevents, hplace, hsettled⟩ := hturn
  obtain ⟨more, hlog, -⟩ := hrely.log
  rw [hrely.stored (by rw [hsettled]; exact hplace) horderly c hc ⟨_, hevents⟩]
  exact hstored (hlog ▸ horderly).before

theorem own_note {e : Event Stored Int} (he : e.call.1 = i) (hlog : t.log = s.log ++ [e])
    (hqueue : ∃ more, t.updateQueue = s.updateQueue ++ more)
    (hsettled : t.settled = s.settled ∨ s.updateQueue[s.settled]? = some i)
    (hstored : t.stored = s.stored ∨ s.updateQueue[s.settled]? = some i ∨
      ∃ c create learned, t.log = s.log ++ [.wrote c (.write create) learned]) : Own i s t :=
  ⟨⟨[e], hlog, fun f hf => by rw [List.mem_singleton.mp hf]; exact he⟩, hqueue, hsettled, hstored⟩

end Assertions

section Quiet
open Attempt

/-- A section that leaves the store and its history alone. -/
def Quiet (s t : Worker) : Prop := t = { s with startInFlight := t.startInFlight }

theorem Quiet.refl (s : Worker) : Quiet s s := rfl

theorem outline_quiet {initial : Stored} {i : Nat} {x : Async α} (hx : x.run.Every Quiet) :
    Attempt.Outline (discipline initial) i (fun _ => True) x (fun _ _ => True) fun _ => True := by
  refine .of_every hx .true (fun s t hs h => ?_) fun _ _ _ _ => trivial
  rw [h]
  exact ⟨hs, (Own.refl i s).log, (Own.refl i s).queue, .inl rfl, .inl rfl⟩

theorem request_quiet {serve : Outside → Worker → α × Worker} (h : ∀ e s, Quiet s (serve e s).2) :
    (request serve).run.Every Quiet :=
  every_request Quiet.refl h

theorem call_quiet : call.run.Every Quiet := request_quiet fun _ s => .refl s

theorem hasOffscreenDocument_quiet : hasOffscreenDocument.run.Every Quiet :=
  request_quiet fun _ s => .refl s

theorem sendMessage_quiet : sendMessage.run.Every Quiet := request_quiet fun _ s => .refl s

theorem clock_quiet : (turn fun e s => (e.now, s) : Async Int).run.Every Quiet :=
  every_turn fun _ s => .refl s

theorem getState_quiet : getState.run.Every Quiet :=
  every_bind (request_quiet fun _ s => .refl s) fun _ => every_turn fun _ s => .refl s

theorem ensureOffscreenDocument_quiet : ensureOffscreenDocument.run.Every Quiet := by
  refine every_bind hasOffscreenDocument_quiet fun present => ?_
  split
  · exact every_pure _
  · exact call_quiet

end Quiet

section Updates
open Attempt
variable {initial : Stored} {i k : Nat} {c : Call} {mutator : Int → State → Except String State}

/-- Where an update that fails has got to. -/
def Failing (i k : Nat) (c : Call) (mutator : Int → State → Except String State)
    (s : Worker) : Prop :=
  HasTurn i k c [.called c (updateOf mutator)] s ∨
    HasTurn i k c [.called c (updateOf mutator), .read c] s

theorem stable_failing : (discipline initial).Stable i (Failing i k c mutator) := by
  rintro s t (h | h) hrely hi
  · exact .inl (stable_turn s t h hrely hi)
  · exact .inr (stable_turn s t h hrely hi)

theorem readState_outline :
    Attempt.Outline (discipline initial) i (HasTurn i k c [.called c (updateOf mutator)])
      (readState c) (HasRead i k c mutator) (HasTurn i k c [.called c (updateOf mutator)]) := by
  refine .request stable_turn (fun _ => stable_read) (Own.refl i) fun _ s hs h _ => ?_
  obtain ⟨hc, hevents, hplace, hsettled⟩ := h
  obtain ⟨hkept, hnext⟩ := hs.next (e := .read c) hevents (List.cons_ne_nil _ _) rfl rfl
    (.read _)
  refine ⟨hkept, own_note (e := .read c) hc rfl ⟨[], (List.append_nil _).symm⟩ (.inl rfl) (.inl rfl), ?_⟩
  exact ⟨⟨hc, hnext, hplace, hsettled⟩, fun _ => rfl⟩

theorem runUpdate_outline :
    Attempt.Outline (discipline initial) i (HasTurn i k c [.called c (updateOf mutator)])
      (runUpdate c mutator)
      (fun _ s => ∃ learned, HasTurn i k c
        [.called c (updateOf mutator), .read c, .wrote c (updateOf mutator) learned] s)
      (Failing i k c mutator) := by
  refine .bind (readState_outline.weaken (fun _ _ h => h) (fun _ _ _ h => h) fun _ _ h => .inl h)
    stable_failing fun value => ?_
  have hchanged : ∀ changed : Int × State, (discipline initial).Stable i fun s =>
      HasRead i k c mutator value s ∧
        mutator changed.1 (value.getD (createInitialState changed.1)) = .ok changed.2 :=
    fun _ s t h hrely hi => ⟨stable_read s t h.1 hrely hi, h.2⟩
  have hmutated : ∀ result : Except String (Int × State), (discipline initial).Stable i
      (After (fun changed s => HasRead i k c mutator value s ∧
        mutator changed.1 (value.getD (createInitialState changed.1)) = .ok changed.2)
        (Failing i k c mutator) result) := by
    intro result
    cases result with
    | error message => exact stable_failing
    | ok changed => exact hchanged changed
  refine .bind (.turn stable_read hmutated fun e s hs h _ => ⟨hs, .refl i s, ?_⟩) stable_failing
    fun mutated => .bind (.ofResult mutated (hmutated mutated)) stable_failing fun changed => ?_
  · cases hmade : mutator e.now (value.getD (createInitialState e.now)) with
    | error message => exact .inr h.1
    | ok state => exact ⟨h, hmade⟩
  have hwritten : (discipline initial).Stable i fun s => ∃ learned, HasTurn i k c
      [.called c (updateOf mutator), .read c, .wrote c (updateOf mutator) learned] s :=
    fun s t h hrely hi => h.imp fun _ hturn => stable_turn s t hturn hrely hi
  refine .bind ((Attempt.Outline.request (hchanged changed) (fun _ => hwritten) (Own.refl i)
    fun _ s hs h _ => ?_).weaken (fun _ _ h => h) (fun _ _ _ h => h) fun _ _ h => .inr h.1.1)
    stable_failing fun _ => .kept changed.2 hwritten
  obtain ⟨⟨⟨hc, hevents, hplace, hsettled⟩, hread⟩, hmade⟩ := h
  have hturn : s.updateQueue[s.settled]? = some i := by
    rw [hsettled]
    exact hplace
  refine ⟨?_, own_note (e := .wrote c (updateOf mutator) changed.1) hc rfl
    ⟨[], (List.append_nil _).symm⟩ (.inl rfl) (.inr (.inl hturn)), changed.1, hc, ?_, hplace,
    hsettled⟩
  · exact hs.updated hevents hread (by rw [hmade]; rfl)
  · exact eventsOf_snoc hevents rfl

/-- Every end of an update lets the next one go on. -/
theorem settle_outline {l : List (Event Stored Int)} {e : Event Stored Int} (hl : l ≠ [])
    (he : e.call = c) (heffect : e.effect? = none) (hphase : Phase c (l ++ [e])) :
    Attempt.Outline (discipline initial) i (HasTurn i k c l) (settle ⟨c, k⟩ e) (fun _ _ => True)
      fun _ => True := by
  refine .turn stable_turn (fun _ => .true) fun _ s hs h _ => ?_
  obtain ⟨hc, hevents, hplace, hsettled⟩ := h
  refine ⟨(hs.next hevents hl he heffect hphase).1, ?_, trivial⟩
  refine own_note (he ▸ hc) rfl ⟨[], (List.append_nil _).symm⟩ (.inr ?_) (.inl rfl)
  rw [hsettled]
  exact hplace

theorem updateState_outline :
    Attempt.Outline (discipline initial) i (fun _ => True) (updateState i mutator)
      (fun _ _ => True) fun _ => True := by
  have hwaiting : ∀ ticket : Ticket, (discipline initial).Stable i fun s =>
      ticket.call.1 = i ∧
        eventsOf ticket.call s.log = [.called ticket.call (updateOf mutator)] ∧
        s.updateQueue[ticket.place]? = some i := by
    rintro ticket s t ⟨hc, hevents, hplace⟩ hrely -
    obtain ⟨more, hlog, hother⟩ := hrely.log
    obtain ⟨queued, hqueue⟩ := hrely.queue
    refine ⟨hc, ?_, ?_⟩
    · rw [hlog, eventsOf_others hc hother, hevents]
    · rw [hqueue]
      exact place_append hplace
  refine .bind (.turn .true hwaiting fun _ s hs _ _ => ?_) .true fun ticket => ?_
  · obtain ⟨hkept, hevents⟩ := hs.called i (updateOf mutator)
    refine ⟨hkept, own_note (e := .called (i, s.log.length) (updateOf mutator)) rfl rfl
      ⟨[i], rfl⟩ (.inl rfl) (.inl rfl), rfl, hevents, ?_⟩
    exact List.getElem?_concat_length
  refine .bind (Q := fun _ => HasTurn i ticket.place ticket.call
    [.called ticket.call (updateOf mutator)]) (.lift ?_ fun _ => stable_turn) .true fun _ => ?_
  · refine .atomic (hwaiting ticket) fun _ s hs h _ hready => ⟨hs, .refl i s, ?_⟩
    intro t hrely hi
    obtain ⟨hc, hevents, hplace⟩ := h
    exact stable_turn s t ⟨hc, hevents, hplace, beq_iff_eq.mp hready⟩ hrely hi
  have hwrote : (discipline initial).Stable i fun s => ∃ learned, HasTurn i ticket.place
      ticket.call [.called ticket.call (updateOf mutator), .read ticket.call,
        .wrote ticket.call (updateOf mutator) learned] s :=
    fun s t h hrely hi => h.imp fun _ hturn => stable_turn s t hturn hrely hi
  refine .bind (.tryCatch runUpdate_outline (fun _ => hwrote) fun message => ?_) .true fun state => ?_
  · refine .bind (Q := fun _ _ => True) ?_ .true fun _ => ?_
    · refine Discipline.Outline.either ?_ ?_
      · exact settle_outline (List.cons_ne_nil _ _) rfl rfl (.refused _)
      · exact settle_outline (List.cons_ne_nil _ _) rfl rfl (.failed _)
    · exact (Attempt.Outline.throw message .true).weaken (fun _ _ h => h) (fun _ _ _ h => h)
        fun _ _ h => h
  · refine .bind (Q := fun _ _ => True) (Discipline.Outline.any fun learned => ?_) .true
      fun _ => outline_quiet (every_pure state)
    exact settle_outline (List.cons_ne_nil _ _) rfl rfl (.updateReturned _ learned)

/-- A write beside the queue is made whatever is stored. -/
theorem setState_outline (create : Int → State) :
    Attempt.Outline (discipline initial) i (fun _ => True) (setState i create) (fun _ _ => True)
      fun _ => True := by
  have hevents : ∀ (l : Call → Int → List (Event Stored Int)) (called : Call × Int),
      (discipline initial).Stable i fun s =>
        called.1.1 = i ∧ eventsOf called.1 s.log = l called.1 called.2 := by
    rintro l called s t ⟨hc, hl⟩ hrely -
    obtain ⟨more, hlog, hother⟩ := hrely.log
    exact ⟨hc, by rw [hlog, eventsOf_others hc hother, hl]⟩
  refine .bind (.turn .true (hevents fun c _ => [.called c (writeOf create)])
    fun e s hs _ _ => ?_) .true fun called => ?_
  · obtain ⟨hkept, hcalled⟩ := hs.called i (writeOf create)
    refine ⟨hkept, own_note (e := .called (i, s.log.length) (writeOf create)) rfl rfl
      ⟨[], (List.append_nil _).symm⟩ (.inl rfl) (.inl rfl), rfl, hcalled⟩
  refine .bind (Q := fun _ s => called.1.1 = i ∧ eventsOf called.1 s.log =
    [.called called.1 (writeOf create), .wrote called.1 (writeOf create) called.2])
    ((Attempt.Outline.request (hevents (fun c _ => [.called c (writeOf create)]) called)
      (fun _ => hevents (fun c now => [.called c (writeOf create),
        .wrote c (writeOf create) now]) called) (Own.refl i) fun _ s hs h _ => ?_).weaken
      (fun _ _ h => h) (fun _ _ _ h => h) fun _ _ _ => trivial) .true fun _ => ?_
  · obtain ⟨hc, hl⟩ := h
    refine ⟨hs.written hl, own_note (e := .wrote called.1 (writeOf create) called.2) hc rfl
      ⟨[], (List.append_nil _).symm⟩ (.inl rfl) (.inr (.inr ⟨_, _, _, rfl⟩)), hc, ?_⟩
    exact eventsOf_snoc hl rfl
  refine .bind (Q := fun _ _ => True) (.turn (hevents (fun c now => [.called c (writeOf create),
    .wrote c (writeOf create) now]) called) (fun _ => .true) fun _ s hs h _ => ?_) .true
    fun _ => outline_quiet (every_pure _)
  obtain ⟨hc, hl⟩ := h
  refine ⟨(hs.next hl (List.cons_ne_nil _ _) rfl rfl (.writeReturned _ called.2)).1, ?_, trivial⟩
  exact own_note (e := .returned called.1) hc rfl ⟨[], (List.append_nil _).symm⟩ (.inl rfl)
    (.inl rfl)

end Updates

section Operations
open Attempt
variable {initial : Stored} {i : Nat}

theorem updateAction_quiet (mode : String) : (updateAction mode).run.Every Quiet := call_quiet

theorem applyTelemetry_outline (telemetry : Option Telemetry) (options : TelemetryOptions) :
    Attempt.Outline (discipline initial) i (fun _ => True) (applyTelemetry i telemetry options)
      (fun _ _ => True) fun _ => True := by
  cases telemetry with
  | none => exact outline_quiet (every_pure _)
  | some telemetry =>
    exact .bind updateState_outline .true fun state => outline_quiet (updateAction_quiet _)

theorem finishUnexpectedCapture_outline (reason : String) (telemetry : Option Telemetry) :
    Attempt.Outline (discipline initial) i (fun _ => True)
      (finishUnexpectedCapture i reason telemetry) (fun _ _ => True) fun _ => True := by
  refine .bind (outline_quiet clock_quiet) .true fun stoppedAt => ?_
  refine .bind updateState_outline .true fun state => outline_quiet ?_
  refine every_bind hasOffscreenDocument_quiet fun present => ?_
  split
  · exact every_bind call_quiet fun _ => updateAction_quiet _
  · exact updateAction_quiet _

theorem failProbe_outline (errorMessage : String) (telemetry : Option Telemetry) :
    Attempt.Outline (discipline initial) i (fun _ => True) (failProbe i errorMessage telemetry)
      (fun _ _ => True) fun _ => True := by
  refine .bind (outline_quiet clock_quiet) .true fun stoppedAt => ?_
  refine .bind updateState_outline .true fun state => outline_quiet ?_
  have hends : (do
      call
      updateAction state.mode : Async Unit).run.Every Quiet :=
    every_bind call_quiet fun _ => updateAction_quiet _
  refine every_bind hasOffscreenDocument_quiet fun present => ?_
  split
  · exact every_bind (every_tryCatch call_quiet fun _ => every_pure _) fun _ => hends
  · exact hends

theorem startProbeFromAction_outline (tab : Option Tab) :
    Attempt.Outline (discipline initial) i (fun _ => True) (startProbeFromAction i tab)
      (fun _ _ => True) fun _ => True := by
  refine .tryCatch ?_ (fun _ => .true) fun message =>
    .bind (failProbe_outline message none) .true fun _ => outline_quiet (every_throw message)
  refine .bind (outline_quiet (every_ofResult _)) .true fun _ => ?_
  refine .bind (outline_quiet (request_quiet fun _ s => .refl s)) .true fun trusted => ?_
  have hstart : Attempt.Outline (discipline initial) i (fun _ => True) (do
      call
      discard (setState i starting)
      updateAction "starting"
      call
      ensureOffscreenDocument
      let telemetry ← ofResult (← sendMessage)
      applyTelemetry i telemetry
        { mode := some "capturing"
          event := some ("INFO", "当前标签页已直连发送到 HarmonyOS 平板（不采集音频）")
          beginStage := true }
      call
      updateAction "capturing"
      getState : Async State) (fun _ _ => True) fun _ => True := by
    refine .bind (outline_quiet call_quiet) .true fun _ => ?_
    refine .bind (.bind (setState_outline starting) .true fun _ => outline_quiet (every_pure _))
      .true fun _ => ?_
    refine .bind (outline_quiet (updateAction_quiet _)) .true fun _ => ?_
    refine .bind (outline_quiet call_quiet) .true fun _ => ?_
    refine .bind (outline_quiet ensureOffscreenDocument_quiet) .true fun _ => ?_
    refine .bind (outline_quiet sendMessage_quiet) .true fun answer => ?_
    refine .bind (outline_quiet (every_ofResult answer)) .true fun telemetry => ?_
    refine .bind (applyTelemetry_outline telemetry _) .true fun _ => outline_quiet ?_
    exact every_bind call_quiet fun _ => every_bind (updateAction_quiet _) fun _ => getState_quiet
  split
  · exact outline_quiet (every_throw _)
  · exact hstart

theorem startCapture_outline :
    Attempt.Outline (discipline initial) i (fun _ => True) (startCapture i) (fun _ _ => True)
      fun _ => True := by
  have hfinished : (turn fun _ s => ((), { s with startInFlight := false }) :
      Async Unit).run.Every Quiet := every_turn fun _ _ => rfl
  refine .bind (outline_quiet (every_turn fun _ _ => rfl)) .true fun busy => ?_
  split
  · exact outline_quiet (every_throw _)
  refine .bind (.tryCatch (E := fun _ => True) ?_ (fun _ => .true) fun message => ?_) .true
    fun _ => outline_quiet hfinished
  · refine .bind (outline_quiet (request_quiet fun _ s => .refl s)) .true fun tab => ?_
    exact .bind (startProbeFromAction_outline tab) .true fun _ => outline_quiet (every_pure _)
  · exact outline_quiet (every_bind hfinished fun _ => every_throw _)

theorem stopProbe_outline (reason : String) :
    Attempt.Outline (discipline initial) i (fun _ => True) (stopProbe i reason) (fun _ _ => True)
      fun _ => True := by
  refine .bind (.bind updateState_outline .true fun _ => outline_quiet (every_pure _)) .true
    fun _ => ?_
  refine .bind (outline_quiet (updateAction_quiet _)) .true fun _ => ?_
  refine .bind (Q := fun _ _ => True) (outline_quiet ?_) .true fun telemetry => ?_
  · refine every_bind hasOffscreenDocument_quiet fun present => ?_
    split
    · refine every_bind sendMessage_quiet fun answer => ?_
      exact every_bind (every_ofResult answer) fun _ => every_bind call_quiet fun _ => every_pure _
    · exact every_pure _
  refine .bind (outline_quiet clock_quiet) .true fun stoppedAt => ?_
  refine .bind updateState_outline .true fun state => outline_quiet ?_
  exact every_bind (updateAction_quiet _) fun _ => every_pure _

theorem resetProbe_outline :
    Attempt.Outline (discipline initial) i (fun _ => True) (resetProbe i) (fun _ _ => True)
      fun _ => True := by
  have hwrite : Attempt.Outline (discipline initial) i (fun _ => True) (do
      let state ← setState i createInitialState
      call
      updateAction "idle"
      return state : Async State) (fun _ _ => True) fun _ => True :=
    .bind (setState_outline _) .true fun _ => outline_quiet
      (every_bind call_quiet fun _ => every_bind (updateAction_quiet _) fun _ => every_pure _)
  refine .bind (outline_quiet hasOffscreenDocument_quiet) .true fun present => ?_
  split
  · have hmessage : (discard sendMessage : Async Unit).run.Every Quiet :=
      every_bind sendMessage_quiet fun _ => every_pure _
    refine .bind (outline_quiet (every_tryCatch hmessage fun _ => every_pure _)) .true fun _ => ?_
    exact .bind (outline_quiet call_quiet) .true fun _ => hwrite
  · exact hwrite

theorem operate_outline (operation : Operation) :
    Attempt.Outline (discipline initial) i (fun _ => True) (operate i operation) (fun _ _ => True)
      fun _ => True := by
  have hdiscard : ∀ {x : Async State}, Attempt.Outline (discipline initial) i (fun _ => True) x
      (fun _ _ => True) (fun _ => True) → Attempt.Outline (discipline initial) i (fun _ => True)
      (discard x) (fun _ _ => True) fun _ => True :=
    fun hx => .bind hx .true fun _ => outline_quiet (every_pure _)
  cases operation with
  | startCapture => exact startCapture_outline
  | stopCapture => exact hdiscard (stopProbe_outline _)
  | resetProbe => exact hdiscard resetProbe_outline
  | setStage stage =>
    refine hdiscard ?_
    unfold setStage
    split
    · exact outline_quiet (every_throw _)
    · exact updateState_outline
  | captureTelemetry telemetry => exact applyTelemetry_outline telemetry _
  | captureEnded reason telemetry => exact finishUnexpectedCapture_outline reason telemetry
  | captureFailure error telemetry => exact failProbe_outline error telemetry

end Operations

section Runs

def launched (stored : Stored) : Worker where
  stored := stored
  updateQueue := []
  settled := 0
  startInFlight := false
  log := []

/-- The configurations that the worker reaches from what is stored. -/
def Reachable (stored : Stored) : Config Nat Worker Outside → Prop :=
  Config.Reaches spawn (fun _ _ _ => True) (Config.idle (launched stored))

/-- In every run in which no plain write comes between the read and the write of an update,
the changes are serializable. -/
theorem store_serializable {stored : Stored} {c : Config Nat Worker Outside}
    (h : Reachable stored c) (horderly : Orderly c.state.log) :
    Serializable stored c.state.log c.state.stored := by
  have hjobs : ∀ i operation s, (discipline stored).invariant s → True → True →
      (spawn i operation).Meets (discipline stored) i (fun _ _ => True) s := by
    intro i operation s hs _ _
    refine Program.Meets.bind hs ((operate_outline operation s hs trivial).mono ?_)
    intro result t ht _ u hu hi
    trivial
  have hkept : Config.Kept (discipline stored) (fun _ _ => True) c :=
    Config.ReachesOffered.kept h.offered (.start stored) (fun _ => .true) (fun _ => trivial) hjobs
  exact hkept.1.serializable horderly

/-- What the offscreen document reports while frames arrive. -/
def report : Telemetry where
  fields _ := .number (.integer 7)
  transition := .null

def capturing : State := { createInitialState 0 with mode := "capturing", startedAt := some 5 }

/-- A report is to be written into the state when the probe is reset; its update reads behind the
reset's write, and ends before the reset does. -/
def resetBeforeReport : List (Move Nat Outside Operation) :=
  [.start 1 (.captureTelemetry (some report)), .step 1 { now := 9 }, .start 0 .resetProbe] ++
    List.replicate 4 (.step 0 { present := false }) ++ List.replicate 8 (.step 1 { now := 9 }) ++
    List.replicate 4 (.step 0 { present := false })

def plainWrite : Event Stored Int → Bool
  | .wrote _ (.write _) _ => true
  | _ => false

def reads : Event Stored Int → Bool
  | .read _ => true
  | _ => false

def calls : Event Stored Int → Bool
  | .called _ _ => true
  | _ => false

def returns : Event Stored Int → Bool
  | .returned _ => true
  | _ => false

/-- What does not stand among the first events makes its front long. -/
theorem late {log front back : List (Event Stored Int)} {e : Event Stored Int} {n : Nat}
    {kind : Event Stored Int → Bool} (hnone : ((log.take n).all fun e => !kind e) = true)
    (hsplit : log = front ++ back) (hmem : e ∈ front) (hkind : kind e = true) : n < front.length := by
  by_contra hshort
  have hfirst : e ∈ log.take n := by
    rw [hsplit, List.take_append, List.take_of_length_le (by omega)]
    exact List.mem_append_left _ hmem
  have hnot := List.all_eq_true.mp hnone e hfirst
  rw [hkind] at hnot
  exact Bool.false_ne_true hnot

theorem reset_then_report_serializable : ∃ c, Reachable (some capturing) c ∧
    c.state.stored.map (fun state => (state.startedAt, state.updatedAt)) = some (none, 9) ∧
    (effects c.state.log).length = 2 ∧
    (∀ a b change, .called b change ∈ c.state.log → ¬ Precedes c.state.log a b) ∧
    Serializable (some capturing) c.state.log c.state.stored := by
  have hrun : (Config.follow spawn (fun _ _ _ => True) (fun _ _ _ => True) resetBeforeReport
      (Config.idle (launched (some capturing)))).any (fun c =>
        c.state.stored.map (fun state => (state.startedAt, state.updatedAt)) = some (none, 9) ∧
        (effects c.state.log).length = 2 ∧
        ((c.state.log.take 2).all fun e => !returns e) = true ∧
        ((c.state.log.drop 2).all fun e => !calls e) = true ∧
        ((c.state.log.take 3).all fun e => !reads e) = true ∧
        ((c.state.log.drop 3).all fun e => !plainWrite e) = true) = true := by
    decide
  obtain ⟨c, hc, hends⟩ := (Option.any_eq_true _ _).mp hrun
  obtain ⟨hstored, htwo, hreturns, hcalls, hreads, hwrites⟩ := of_decide_eq_true hends
  have hreach : Reachable (some capturing) c := (Config.ReachesOffered.follow .refl _ hc).reaches
  have horderly : Orderly c.state.log := by
    rintro front call create learned back hsplit c' ⟨change, hreading⟩
    have hread : .read c' ∈ front := by
      refine List.mem_of_mem_filter (p := fun e => e.call == c') ?_
      rw [show front.filter (fun e => e.call == c') = _ from hreading]
      simp
    have hfar := late hreads hsplit hread rfl
    have hmem : .wrote call (.write create) learned ∈ c.state.log.drop 3 := by
      rw [hsplit, List.drop_append_of_le_length hfar.le]
      exact List.mem_append_right _ List.mem_cons_self
    exact absurd (List.all_eq_true.mp hwrites _ hmem) Bool.false_ne_true
  have hoverlap (a b : Call) (change : Change Stored Int) (hcalled : .called b change ∈ c.state.log) :
      ¬ Precedes c.state.log a b := by
    rintro ⟨front, back, hsplit, hreturned, hnone⟩
    have hfar := late hreturns hsplit hreturned rfl
    rw [← List.take_append_drop 2 c.state.log] at hcalled
    rcases List.mem_append.mp hcalled with hfirst | hlater
    · rw [hsplit, List.take_append_of_le_length hfar.le] at hfirst
      exact hnone change (List.mem_of_mem_take hfirst)
    · exact absurd (List.all_eq_true.mp hcalls _ hlater) Bool.false_ne_true
  exact ⟨c, hreach, hstored, htwo, hoverlap, store_serializable hreach horderly⟩

/-- A report is being written into the state when the probe is reset. -/
def resetUnderReport : List (Move Nat Outside Operation) :=
  [.start 0 (.captureTelemetry (some report)), .step 0 {}, .step 0 {}, .step 0 {},
    .start 1 .resetProbe] ++ List.replicate 6 (.step 1 { present := false }) ++
    List.replicate 5 (.step 0 { now := 9 })

theorem reset_lost : ∃ c, Reachable (some capturing) c ∧
    c.state.stored.map (fun state => (state.startedAt, state.updatedAt)) = some (some 5, 9) ∧
    ¬ Serializable (some capturing) c.state.log c.state.stored := by
  have hrun : (Config.follow spawn (fun _ _ _ => True) (fun _ _ _ => True) resetUnderReport
      (Config.idle (launched (some capturing)))).any (fun c =>
        c.state.stored.map (fun state => (state.startedAt, state.updatedAt)) = some (some 5, 9) ∧
        (effects c.state.log).length = 2 ∧
        (replay (some capturing) (effects c.state.log)).bind State.startedAt = none ∧
        (replay (some capturing) (effects c.state.log).reverse).bind State.startedAt = none) =
      true := by
    decide
  obtain ⟨c, hc, hends⟩ := (Option.any_eq_true _ _).mp hrun
  obtain ⟨hstored, hlength, hmade, hreversed⟩ := of_decide_eq_true hends
  refine ⟨c, (Config.ReachesOffered.follow .refl _ hc).reaches, hstored, ?_⟩
  rintro ⟨order, hperm, -, -, -, -, hvalue⟩
  obtain ⟨a, b, heffects⟩ := List.length_eq_two.mp hlength
  have hstarted : c.state.stored.bind State.startedAt = none := by
    rw [hvalue]
    rw [heffects] at hperm hmade hreversed
    rcases List.perm_pair.mp hperm with rfl | rfl
    · exact hmade
    · exact hreversed
  cases hstate : c.state.stored with
  | none =>
    rw [hstate] at hstored
    cases hstored
  | some state =>
    rw [hstate] at hstored hstarted
    simp only [Option.map_some, Option.some.injEq, Prod.mk.injEq] at hstored
    rw [Option.bind_some, hstored.1] at hstarted
    cases hstarted

end Runs

end HarmonyScreen.Proofs.StateStore
