import HarmonyScreen.Extension.DirectClient
import HarmonyScreen.Extension.Setup
import Mathlib.Data.List.Induction

namespace HarmonyScreen.Proofs.Forgetting
open Lib
open Receiver
open Extension
open Extension.DirectProtocol
open Extension.HostPermissions
open Extension.Setup

section Log

/-- The invocation that did it. -/
def thread : Event → Nat
  | .read i _ => i
  | .exchanged i _ => i
  | .completed i _ => i
  | .updated i _ => i
  | .removed i => i
  | .failed i _ => i

/-- Whether a device is in hand from here on. -/
def takes : Event → Bool
  | .read _ _ => true
  | .exchanged _ _ => true
  | _ => false

/-- The device that is written to the storage. -/
def stored : Event → Option TrustedDevice
  | .completed _ device => some device
  | .updated _ device => some device
  | _ => none

/-- An invocation has read a record or ended an exchange and has not written or failed since. -/
def InHand (log : List Event) (i : Nat) : Prop :=
  ∃ front e back, log = front ++ e :: back ∧ thread e = i ∧ takes e = true ∧
    ∀ f ∈ back, thread f ≠ i

/-- No removal takes effect while an invocation has a device in hand. -/
def Orderly (log : List Event) : Prop :=
  ∀ front i back, log = front ++ .removed i :: back → ∀ j, ¬ InHand front j

/-- `P` holds of what came behind each removal. -/
def Since (log : List Event) (P : List Event → Prop) : Prop :=
  ∀ front i back, log = front ++ .removed i :: back → P back

/-- An exchange has handed the credential out, and its pairing has stored it. -/
def Renewed (credential : Bytes) (log : List Event) : Prop :=
  ∃ j device kept, List.Sublist [.exchanged j device, .completed j kept] log ∧
    device.credential = credential ∧ kept.credential = credential

/-- Every write behind a removal stores what a pairing has renewed behind that removal. -/
def Final (log : List Event) : Prop :=
  ∀ front e back device, log = front ++ e :: back → stored e = some device →
    Since front fun since => Renewed device.credential (since ++ [e])

variable {log since front back : List Event} {e f : Event} {i j : Nat}
  {P : List Event → Prop} {credential : Bytes}

theorem split_snoc (h : log ++ [e] = front ++ f :: back) :
    (front = log ∧ f = e ∧ back = []) ∨ ∃ rest, back = rest ++ [e] ∧ log = front ++ f :: rest := by
  rcases List.eq_nil_or_concat back with rfl | ⟨rest, g, hback⟩
  · obtain ⟨rfl, rfl⟩ := List.append_inj' h rfl |>.imp_right List.singleton_inj.mp
    exact .inl ⟨rfl, rfl, rfl⟩
  · refine .inr ⟨rest, ?_⟩
    rw [List.concat_eq_append] at hback
    subst hback
    rw [← List.cons_append, ← List.append_assoc] at h
    obtain ⟨hlog, hlast⟩ := List.append_inj' h rfl
    obtain rfl := List.singleton_inj.mp hlast
    exact ⟨rfl, hlog⟩

theorem Renewed.append (h : Renewed credential log) (more : List Event) :
    Renewed credential (log ++ more) := by
  obtain ⟨j, device, kept, hsub, hcredential⟩ := h
  exact ⟨j, device, kept, hsub.trans (List.sublist_append_left log more), hcredential⟩

theorem Since.snoc (h : Since log fun since => P (since ++ [e]))
    (hremoved : ∀ j, e = .removed j → P []) : Since (log ++ [e]) P := by
  intro front j back hsplit
  rcases split_snoc hsplit with ⟨-, he, rfl⟩ | ⟨rest, rfl, hlog⟩
  · exact hremoved j he.symm
  · exact h front j rest hlog

theorem Since.mono {Q : List Event → Prop} (h : Since log P) (hPQ : ∀ since, P since → Q since) :
    Since log Q :=
  fun front j back hsplit => hPQ back (h front j back hsplit)

theorem Orderly.before (h : Orderly (log ++ [e])) : Orderly log := by
  intro front j back hsplit
  exact h front j (back ++ [e]) (by rw [hsplit, List.append_assoc, List.cons_append])

theorem Orderly.removed (h : Orderly (log ++ [.removed i])) (j : Nat) : ¬ InHand log j :=
  h log i [] rfl j

theorem Final.snoc (h : Final log)
    (he : ∀ device, stored e = some device →
      Since log fun since => Renewed device.credential (since ++ [e])) : Final (log ++ [e]) := by
  intro front f back device hsplit hstored
  rcases split_snoc hsplit with ⟨rfl, rfl, -⟩ | ⟨rest, -, hlog⟩
  · exact he device hstored
  · exact h front f rest device hlog hstored

theorem InHand.take (htakes : takes e = true) (hthread : thread e = i) : InHand (log ++ [e]) i :=
  ⟨log, e, [], rfl, hthread, htakes, fun _ hf => nomatch hf⟩

theorem InHand.other (h : InHand log i) (hthread : thread e ≠ i) : InHand (log ++ [e]) i := by
  obtain ⟨front, f, back, rfl, hf, htakes, hback⟩ := h
  refine ⟨front, f, back ++ [e], by simp, hf, htakes, fun g hg => ?_⟩
  rcases List.mem_append.mp hg with hg | hg
  · exact hback g hg
  · obtain rfl := List.mem_singleton.mp hg
    exact hthread

/-- What an invocation knows of the device that it has in hand. -/
def Held (i : Nat) (P : List Event → Prop) (log : List Event) : Prop :=
  Orderly log → InHand log i ∧ Since log P

/-- What others do does not reach a device in hand: they do not remove it. -/
theorem Held.other (h : Held i P log) (hmono : ∀ since e, P since → P (since ++ [e]))
    (hthread : thread e ≠ i) : Held i P (log ++ [e]) := by
  intro horderly
  obtain ⟨hhand, hsince⟩ := h horderly.before
  refine ⟨hhand.other hthread, (hsince.mono fun since => hmono since e).snoc ?_⟩
  rintro j rfl
  exact absurd hhand (horderly.removed i)

theorem Held.others (h : Held i P log) (hmono : ∀ since e, P since → P (since ++ [e]))
    (more : List Event) (hthread : ∀ e ∈ more, thread e ≠ i) : Held i P (log ++ more) := by
  induction more using List.reverseRecOn with
  | nil => simpa using h
  | append_singleton more e ih =>
    rw [← List.append_assoc]
    refine (ih fun f hf => hthread f (List.mem_append_left _ hf)).other hmono (hthread e ?_)
    exact List.mem_append_right _ List.mem_cons_self

end Log

section Discipline

/-- As long as the removals are orderly, they are final, and what is stored is renewed. -/
def Kept (s : Page) : Prop :=
  Orderly s.log → Final s.log ∧
    ∀ record, s.trusted = some record → Since s.log (Renewed (record.credential.getD []))

def Appends (own : Event → Prop) (s t : Page) : Prop :=
  ∃ more, t.log = s.log ++ more ∧ ∀ e ∈ more, own e

theorem Appends.refl {own : Event → Prop} (s : Page) : Appends own s s :=
  ⟨[], (List.append_nil _).symm, fun _ he => nomatch he⟩

theorem Appends.trans {own : Event → Prop} {s t u : Page} (h : Appends own s t)
    (h' : Appends own t u) : Appends own s u := by
  obtain ⟨more, hlog, hown⟩ := h
  obtain ⟨more', hlog', hown'⟩ := h'
  refine ⟨more ++ more', by rw [hlog', hlog, List.append_assoc], fun e he => ?_⟩
  exact (List.mem_append.mp he).elim (hown e) (hown' e)

def discipline : Discipline Nat Page Outside where
  invariant := Kept
  offers _ _ _ := True
  rely i := Appends fun e => thread e ≠ i
  guarantee i := Appends fun e => thread e = i
  refl _ := Appends.refl
  trans _ := Appends.trans
  compatible hne _ h := by
    obtain ⟨more, hlog, hown⟩ := h
    exact ⟨more, hlog, fun e he heq => hne ((hown e he).symm.trans heq)⟩

variable {s t : Page} {e : Event} {i : Nat} {device : TrustedDevice}

/-- An event that stores nothing, while the storage stays as it is. -/
theorem Kept.note (h : Kept s) (hstored : stored e = none) (hremoved : ∀ j, e ≠ .removed j)
    (hlog : t.log = s.log ++ [e]) (htrusted : t.trusted = s.trusted) : Kept t := by
  intro horderly
  rw [hlog] at horderly ⊢
  obtain ⟨hfinal, hkept⟩ := h horderly.before
  refine ⟨hfinal.snoc fun device he => ?_, fun record hrecord => ?_⟩
  · rw [hstored] at he
    cases he
  · rw [htrusted] at hrecord
    exact ((hkept record hrecord).mono fun since hr => hr.append [e]).snoc
      fun j he => absurd he (hremoved j)

theorem Kept.remove (h : Kept s) (hlog : t.log = s.log ++ [.removed i])
    (htrusted : t.trusted = none) : Kept t := by
  intro horderly
  rw [hlog] at horderly ⊢
  refine ⟨(h horderly.before).1.snoc fun device (he : none = _) => ?_, fun record hrecord => ?_⟩
  · cases he
  · rw [htrusted] at hrecord
    cases hrecord

/-- A write of what is renewed with it. -/
theorem Kept.store (h : Kept s) (hstored : stored e = some device)
    (hsince : Orderly s.log →
      Since s.log fun since => Renewed device.credential (since ++ [e]))
    (hlog : t.log = s.log ++ [e]) (htrusted : t.trusted = some device.toRecord) : Kept t := by
  intro horderly
  rw [hlog] at horderly ⊢
  have hrenewed := hsince horderly.before
  refine ⟨(h horderly.before).1.snoc fun kept he => ?_, fun record hrecord => ?_⟩
  · rw [hstored] at he
    obtain rfl := Option.some.inj he
    exact hrenewed
  · rw [htrusted] at hrecord
    obtain rfl := Option.some.inj hrecord
    refine hrenewed.snoc fun j he => ?_
    subst he
    cases hstored

theorem stable_log {R : List Event → Prop}
    (h : ∀ log more, R log → (∀ e ∈ more, thread e ≠ i) → R (log ++ more)) :
    discipline.Stable i fun s => R s.log := by
  rintro s t hs ⟨more, hlog, hother⟩ -
  rw [hlog]
  exact h s.log more hs hother

theorem stable_held {P : List Event → Prop} (hmono : ∀ since e, P since → P (since ++ [e])) :
    discipline.Stable i fun s => Held i P s.log :=
  stable_log fun _ more h hother => h.others hmono more hother

/-- A section that has nothing to do with the trusted receiver, except that it may drop an
invalid one. -/
def Quiet (s t : Page) : Prop := t.log = s.log ∧ (t.trusted = s.trusted ∨ t.trusted = none)

theorem Quiet.kept (h : Quiet s t) (hs : Kept s) : Kept t := by
  intro horderly
  obtain ⟨hlog, htrusted⟩ := h
  rw [hlog] at horderly ⊢
  obtain ⟨hfinal, hkept⟩ := hs horderly
  refine ⟨hfinal, fun record hrecord => ?_⟩
  rcases htrusted with hsame | hnone
  · exact hkept record (hsame ▸ hrecord)
  · rw [hnone] at hrecord
    cases hrecord

theorem outline_quiet {x : Async α} {R : List Event → Prop} (hx : x.run.Every Quiet)
    (stable : discipline.Stable i fun s => R s.log) :
    Attempt.Outline discipline i (fun s => R s.log) x (fun _ s => R s.log) fun s => R s.log := by
  refine .of_every hx stable (fun s t hs h => ⟨h.kept hs, [], ?_, fun _ he => nomatch he⟩) ?_
  · rw [h.1, List.append_nil]
  · intro s t hs h
    rw [h.1]
    exact hs

end Discipline

section Quiet
open Attempt

/-- A section that leaves the device, the permissions and the log alone. -/
structure Still (s t : Page) : Prop where
  trusted : t.trusted = s.trusted
  origins : t.origins = s.origins
  log : t.log = s.log

theorem Still.refl (s : Page) : Still s s := ⟨rfl, rfl, rfl⟩

theorem Still.trans {s t u : Page} (h : Still s t) (h' : Still t u) : Still s u :=
  ⟨h'.trusted.trans h.trusted, h'.origins.trans h.origins, h'.log.trans h.log⟩

theorem Still.quiet (s t : Page) (h : Still s t) : Quiet s t := ⟨h.log, .inl h.trusted⟩

theorem quiet_of_still {x : Async α} (hx : x.run.Every Still) : x.run.Every Quiet :=
  hx.mono Still.quiet

theorem Quiet.refl (s : Page) : Quiet s s := (Still.refl s).quiet

theorem request_quiet {serve : Outside → Page → α × Page} (h : ∀ e s, Quiet s (serve e s).2) :
    (request serve).run.Every Quiet :=
  every_request Quiet.refl h

theorem request_still {serve : Outside → Page → α × Page} (h : ∀ e s, Still s (serve e s).2) :
    (request serve).run.Every Still :=
  every_request Still.refl h

theorem getOrCreateSenderId_still : getOrCreateSenderId.run.Every Still := by
  refine every_bind (request_still fun _ s => .refl s) fun existing => ?_
  split
  · exact every_pure _
  · refine every_bind (every_turn fun _ s => .refl s) fun senderId => ?_
    exact every_bind (request_still fun _ s => ⟨rfl, rfl, rfl⟩) fun _ => every_pure _

theorem checkTrustedReceiver_quiet (result : Option DeviceRecord) :
    (checkTrustedReceiver result).run.Every Quiet := by
  cases result with
  | none => exact every_pure _
  | some record =>
    simp only [checkTrustedReceiver]
    split
    · exact every_pure _
    · exact every_bind (request_quiet fun _ s => ⟨rfl, .inr rfl⟩) fun _ => every_pure _

theorem getTrustedReceiver_quiet : (getTrustedReceiver fun _ => []).run.Every Quiet := by
  refine every_bind (request_quiet fun _ s => ⟨?_, .inl rfl⟩) checkTrustedReceiver_quiet
  cases s.trusted <;> exact List.append_nil _

theorem getPendingPairing_still : getPendingPairing.run.Every Still := by
  refine every_bind (every_turn fun _ s => .refl s) fun now => ?_
  refine every_bind (request_still fun _ s => .refl s) fun result => ?_
  cases result with
  | none => exact every_pure _
  | some value =>
    simp only
    split
    · exact every_pure _
    · exact every_bind (request_still fun _ s => ⟨rfl, rfl, rfl⟩) fun _ => every_pure _

theorem savePendingPairing_still (pending : Pending) (now : Int) :
    (savePendingPairing pending now).run.Every Still :=
  every_bind (every_ofResult _) fun _ => request_still fun _ _ => ⟨rfl, rfl, rfl⟩

theorem settle_still (write : Write) : write.settle.run.Every Still := by
  have hsettled : (turn fun _ s => ((), { s with writesSettled := write.ticket + 1 }) :
      Async Unit).run.Every Still :=
    every_turn fun _ _ => ⟨rfl, rfl, rfl⟩
  refine every_bind (every_lift fun s _ _ => ⟨.refl s, trivial⟩) fun now => ?_
  refine every_bind (every_tryCatch (savePendingPairing_still _ now) fun message => ?_) fun _ => ?_
  · exact every_bind hsettled fun _ => every_throw message
  · exact hsettled

theorem clearPendingState_still : clearPendingState.run.Every Still := by
  refine every_bind (every_turn fun _ s => .refl s) fun writes => ?_
  refine every_bind (every_await Still.refl) fun _ => ?_
  exact request_still fun _ _ => ⟨rfl, rfl, rfl⟩

theorem refreshAuthorization_still : refreshAuthorization.run.Every Still :=
  every_bind (every_turn fun _ _ => ⟨rfl, rfl, rfl⟩) settle_still

theorem renderTrusted_still (trusted : Option TrustedDevice) :
    (renderTrusted trusted).run.Every Still :=
  every_turn fun _ _ => ⟨rfl, rfl, rfl⟩

theorem input_still (text : Text) : (input text).run.Every Still := by
  refine every_bind (every_turn fun _ s => ?_) fun write => ?_
  · cases h : s.authorization <;> exact ⟨rfl, rfl, rfl⟩
  · cases write with
    | none => exact every_pure _
    | some write => exact settle_still write

/-- A call that asks for or changes what is granted. -/
theorem permission_quiet {answer : Outside → α} {left : Outside → List Text} :
    (request fun e s => (answer e, { s with origins := left e })).run.Every Quiet :=
  request_quiet fun _ _ => ⟨rfl, .inl rfl⟩

theorem acquireHostPermission_quiet (host : Text) : (acquireHostPermission host).run.Every Quiet := by
  refine every_bind (every_ofResult _) fun origin => ?_
  cases origin with
  | none => exact every_pure _
  | some origin =>
    refine every_bind permission_quiet fun contained => ?_
    split
    · exact every_pure _
    · refine every_bind permission_quiet fun granted => ?_
      split
      · exact every_throw _
      · exact every_pure _

theorem hasHostPermission_quiet (host : Text) : (hasHostPermission host).run.Every Quiet := by
  refine every_bind (every_ofResult _) fun origin => ?_
  cases origin with
  | none => exact every_pure _
  | some origin => exact permission_quiet

theorem revokeHostPermission_quiet (origin : Option Text) :
    (revokeHostPermission origin).run.Every Quiet := by
  cases origin with
  | none => exact every_pure _
  | some origin =>
    refine every_bind permission_quiet fun removed => ?_
    split
    · exact every_throw _
    · exact every_pure _

theorem revokeAll_quiet (origins : List Text) : (revokeAll origins).run.Every Quiet := by
  induction origins with
  | nil => exact every_pure _
  | cons origin origins ih => exact every_bind (revokeHostPermission_quiet _) fun _ => ih

theorem cleanup_quiet (usedHosts : List Text) :
    (cleanupUnusedManualHostPermissions usedHosts).run.Every Quiet := by
  refine every_bind (every_ofResult _) fun usedOrigins => ?_
  exact every_bind permission_quiet fun granted => revokeAll_quiet _

end Quiet

section Operations
open Attempt

variable {i : Nat} {P : Page → Prop} {Q : α → Page → Prop}

theorem outline_request {serve : Outside → Page → α × Page}
    (stable : discipline.Stable i P) (after : ∀ a, discipline.Stable i (Q a))
    (h : ∀ e s, Kept s → P s →
      Kept (serve e s).2 ∧ Appends (fun e => thread e = i) s (serve e s).2 ∧
        Q (serve e s).1 (serve e s).2) : Attempt.Outline discipline i P (request serve) Q P :=
  .request stable after Appends.refl fun e s hs hp _ => h e s hs hp

theorem outline_quiet_true {x : Async α} (hx : x.run.Every Quiet) :
    Attempt.Outline discipline i (fun _ => True) x (fun _ _ => True) fun _ => True :=
  outline_quiet (R := fun _ => True) hx .true

theorem showError_outline (message : String) :
    Attempt.Outline discipline i (fun _ => True) (showError i message) (fun _ _ => True)
      fun _ => True := by
  refine .turn .true (fun _ => .true) fun _ s hs _ _ => ⟨?_, ?_, trivial⟩
  · refine hs.note (e := .failed i message) rfl ?_ rfl rfl
    intro j h
    cases h
  · refine ⟨[.failed i message], rfl, fun e he => ?_⟩
    rw [List.mem_singleton.mp he]
    rfl

theorem withHostPermission_outline {R : List Event → Prop} {operation : Async α} (host : Text)
    (stable : discipline.Stable i fun s => R s.log) (after : ∀ a, discipline.Stable i (Q a))
    (hoperation : Attempt.Outline discipline i (fun s => R s.log) operation Q fun _ => True) :
    Attempt.Outline discipline i (fun s => R s.log) (withHostPermission host operation) Q
      fun _ => True := by
  have hacquire := outline_quiet (acquireHostPermission_quiet host) stable
  refine .bind (hacquire.weaken (fun _ _ h => h) (fun _ _ _ h => h) fun _ _ _ => trivial) .true
    fun lease => ?_
  refine .tryCatch hoperation after fun message => ?_
  have hrethrow : Attempt.Outline discipline i (fun _ => True) (throw message : Async α) Q
      fun _ => True := .throw message .true
  split
  · refine .bind (outline_quiet_true ?_) .true fun _ => hrethrow
    exact every_tryCatch (revokeHostPermission_quiet _) fun _ => every_throw _
  · exact hrethrow

/-- A credential that was read, if one was, is in hand and renewed. -/
def Known (i : Nat) (result : Option Bytes) (log : List Event) : Prop :=
  ∀ credential, result = some credential → Held i (Renewed credential) log

theorem stable_known (result : Option Bytes) :
    discipline.Stable i fun s => Known i result s.log :=
  stable_log fun _ more h hother credential hresult =>
    (h credential hresult).others (fun _ e hr => hr.append [e]) more hother

theorem Known.none (log : List Event) : Known i none log := fun _ h => nomatch h

theorem pure_none_outline :
    Attempt.Outline discipline i (fun _ => True) (pure none)
      (fun (result : Option TrustedDevice) s => Known i (result.map TrustedDevice.credential) s.log)
      fun _ => True :=
  (Attempt.Outline.pure none (stable_known none)).weaken (fun s _ _ => Known.none s.log)
    (fun _ _ _ h => h) fun _ _ h => h

/-- The read of `updateTrustedHost` has the record in hand. -/
theorem getTrustedReceiver_outline :
    Attempt.Outline discipline i (fun _ => True) (getTrustedReceiver fun record => [.read i record])
      (fun result s => Known i (result.map TrustedDevice.credential) s.log) fun _ => True := by
  refine .bind (outline_request (Q := fun result s =>
    Known i (result.map fun record => record.credential.getD []) s.log) .true
    (fun _ => stable_known _) fun _ s hs _ => ?_) .true fun result => ?_
  · cases htrusted : s.trusted with
    | none =>
      have hsame : s.log ++ ((none : Option DeviceRecord).map fun record =>
          [Event.read i record]).getD [] = s.log := List.append_nil _
      refine ⟨?_, ?_, Known.none _⟩
      · exact Quiet.kept ⟨hsame, .inl htrusted.symm⟩ hs
      · exact ⟨[], by rw [List.append_nil]; exact hsame, fun _ he => nomatch he⟩
    | some record =>
      refine ⟨?_, ?_, ?_⟩
      · refine hs.note (e := .read i record) rfl ?_ rfl htrusted.symm
        intro j h
        cases h
      · refine ⟨[.read i record], rfl, fun e he => ?_⟩
        rw [List.mem_singleton.mp he]
        rfl
      · rintro credential ⟨⟩ horderly
        have hrenewed := (hs horderly.before).2 record htrusted
        refine ⟨.take rfl rfl, (hrenewed.mono fun since hr => hr.append _).snoc ?_⟩
        intro j h
        cases h
  · cases result with
    | none =>
      exact pure_none_outline.weaken (fun _ _ _ => trivial) (fun _ _ _ h => h) fun _ _ h => h
    | some record =>
      simp only [checkTrustedReceiver]
      split
      · rename_i device hdevice
        have hcredential := (validateTrustedDevice_ok hdevice).2.2
        refine (Attempt.Outline.pure (some device) (stable_known _)).weaken (fun s _ h => ?_)
          (fun _ _ _ h => h) fun _ _ h => h
        rwa [Option.map_some, hcredential] at h
      · refine .bind (Q := fun _ _ => True) ?_ .true fun _ => pure_none_outline
        exact (outline_quiet_true (request_quiet fun _ s => ⟨rfl, .inr rfl⟩)).weaken
          (fun _ _ _ => trivial) (fun _ _ _ h => h) fun _ _ h => h

/-- A write of what is in hand, when it is renewed with the write. -/
theorem saveTrustedReceiver_outline {R : List Event → Prop} {saved : TrustedDevice → Event}
    {record : DeviceRecord} (stable : discipline.Stable i fun s => R s.log)
    (hsaved : ∀ device, stored (saved device) = some device ∧ thread (saved device) = i)
    (hrenewed : ∀ device log, record.credential.getD [] = device.credential → R log →
      Orderly log → Since log fun since => Renewed device.credential (since ++ [saved device])) :
    Attempt.Outline discipline i (fun s => R s.log) (saveTrustedReceiver saved record)
      (fun _ _ => True) fun _ => True := by
  refine .bind (Q := fun device s => record.credential.getD [] = device.credential ∧ R s.log)
    ?_ .true fun device => ?_
  · cases hdevice : validateTrustedDevice
        { record with host := some (record.host.getD defaultReceiverHost) } with
    | error message =>
      exact (Attempt.Outline.throw message .true).weaken (fun _ _ _ => trivial) (fun _ _ _ h => h)
        fun _ _ h => h
    | ok device =>
      have hstable : discipline.Stable i fun s =>
          record.credential.getD [] = device.credential ∧ R s.log :=
        fun s t h hrely hi => ⟨h.1, stable s t h.2 hrely hi⟩
      refine (Attempt.Outline.pure device hstable).weaken (fun s _ h => ⟨?_, h⟩) (fun _ _ _ h => h)
        fun _ _ h => h
      exact (validateTrustedDevice_ok hdevice).2.2
  · obtain ⟨hstored, hthread⟩ := hsaved device
    refine .bind (Q := fun _ _ => True) ?_ .true fun _ =>
      (outline_quiet_true (every_pure device)).weaken (fun _ _ h => h) (fun _ _ _ h => h)
        fun _ _ h => h
    refine (outline_request (fun s t h hrely hi => ⟨h.1, stable s t h.2 hrely hi⟩)
      (fun _ => .true) fun _ s hs h => ⟨?_, ?_, trivial⟩).weaken (fun _ _ h => h)
      (fun _ _ _ h => h) fun _ _ _ => trivial
    · exact hs.store hstored (hrenewed device s.log h.1 h.2) rfl rfl
    · refine ⟨[saved device], rfl, fun e he => ?_⟩
      rw [List.mem_singleton.mp he]
      exact hthread

theorem updateTrustedHost_outline :
    Attempt.Outline discipline i (fun _ => True) (updateTrustedHost i) (fun _ _ => True)
      fun _ => True := by
  refine .tryCatch (.bind getTrustedReceiver_outline .true fun trusted => ?_) (fun _ => .true)
    showError_outline
  cases trusted with
  | none =>
    exact (Attempt.Outline.throw _ .true).weaken (fun _ _ _ => trivial) (fun _ _ _ h => h)
      fun _ _ h => h
  | some trusted =>
    have hstable : discipline.Stable i fun s => Known i (some trusted.credential) s.log :=
      stable_known _
    have hread := outline_quiet (every_turn fun _ s => .refl s :
      (turn fun _ s => (s.pairedHost, s) : Async Text).run.Every Quiet) hstable
    refine .bind (hread.weaken (fun _ _ h => h) (fun _ _ _ h => h) fun _ _ _ => trivial) .true
      fun pairedHost => ?_
    have hhost := outline_quiet (every_ofResult (normalizeReceiverHost pairedHost)) hstable
    refine .bind (hhost.weaken (fun _ _ h => h) (fun _ _ _ h => h) fun _ _ _ => trivial) .true
      fun host => ?_
    refine .bind (withHostPermission_outline host hstable (fun _ => .true) ?_) .true
      fun updated => outline_quiet_true (every_bind (quiet_of_still (renderTrusted_still _)) fun _ => cleanup_quiet _)
    refine saveTrustedReceiver_outline hstable (fun _ => ⟨rfl, rfl⟩) ?_
    intro device log hcredential hknown horderly
    have hsince := (hknown _ rfl horderly).2
    exact hsince.mono fun since hr => hcredential ▸ hr.append _

/-- The exchange over the socket tells the page no more than an answer: what the page makes of it is
what the client makes of it. -/
theorem exchange_of_client {p : Platform} {host : Text} {authorization : Authorization}
    {senderId nonce : Bytes} {now : Int} {events : List DirectClient.Event}
    {result : Except DirectClient.Failure TrustedDevice}
    (hhost : normalizeReceiverHost host = .ok host)
    (h : DirectClient.pairReceiver p host authorization senderId nonce now events = some result) :
    ∃ response, ∀ (e : Outside) (s : Page), e.now = now → e.response = response →
      (s.exchange i host (some authorization) senderId e).1.toOption = result.toOption := by
  rw [DirectClient.pairReceiver, hhost] at h
  dsimp only at h
  split at h
  · cases h
  · cases h
    refine ⟨.error "", fun e s _ hresponse => ?_⟩
    simp only [Page.exchange, hresponse]
    rfl
  · rename_i response _
    cases h
    refine ⟨.ok ⟨Value.textOr "" (response.member "deviceId"),
      Value.textOr "" (response.member "credential")⟩, fun e s hnow hresponse => ?_⟩
    simp only [Page.exchange, hresponse, hnow, DirectClient.pairedDevice]
    split
    all_goals
      rename_i hdevice
      rw [hdevice]
      rfl

/-- The end of an exchange has the device in hand. -/
theorem pairReceiver_outline (host : Text) (authorization : Option Authorization)
    (senderId : Bytes) :
    Attempt.Outline discipline i (fun _ => True) (pairReceiver i host authorization senderId)
      (fun device s => Held i (fun since => .exchanged i device ∈ since) s.log) fun _ => True := by
  have hstable : ∀ result : Except String TrustedDevice, discipline.Stable i fun s =>
      ∀ device, result = .ok device → Held i (fun since => .exchanged i device ∈ since) s.log :=
    fun result => stable_log (R := fun log => ∀ device, result = .ok device →
      Held i (fun since => .exchanged i device ∈ since) log) fun log more h hother device hresult =>
        (h device hresult).others (fun _ _ => List.mem_append_left _) more hother
  refine .bind (.turn (Q := fun (result : Except String TrustedDevice) s =>
    ∀ device, result = .ok device → Held i (fun since => .exchanged i device ∈ since) s.log)
    .true hstable fun e s hs _ _ => ?_) .true fun result => ?_
  · have hsame : ∀ message : String, Kept s ∧ Appends (fun e => thread e = i) s s ∧
        ∀ device, (Except.error message : Except String TrustedDevice) = .ok device →
          Held i (fun since => .exchanged i device ∈ since) s.log :=
      fun _ => ⟨hs, .refl s, fun _ h => nomatch h⟩
    cases authorization with
    | none => exact hsame _
    | some authorization =>
      cases hresponse : e.response with
      | error message =>
        simp only [Page.exchange, hresponse]
        exact hsame message
      | ok response =>
        simp only [Page.exchange, hresponse]
        split
        · exact hsame _
        · rename_i device hdevice
          refine ⟨?_, ?_, ?_⟩
          · refine hs.note (e := .exchanged i device) rfl ?_ rfl rfl
            intro j h
            cases h
          · refine ⟨[.exchanged i device], rfl, fun f hf => ?_⟩
            rw [List.mem_singleton.mp hf]
            rfl
          · rintro _ ⟨⟩ horderly
            refine ⟨.take rfl rfl, Since.snoc (fun _ _ _ _ => ?_) ?_⟩
            · exact List.mem_append_right _ List.mem_cons_self
            · intro j h
              cases h
  · cases result with
    | error message =>
      exact (Attempt.Outline.throw message .true).weaken (fun _ _ _ => trivial) (fun _ _ _ h => h)
        fun _ _ h => h
    | ok device =>
      refine (Attempt.Outline.pure device ?_).weaken (fun _ _ h => h device rfl) (fun _ _ _ h => h)
        fun _ _ h => h
      exact stable_held fun _ _ => List.mem_append_left _

theorem completePairing_outline :
    Attempt.Outline discipline i (fun _ => True) (completePairing i) (fun _ _ => True)
      fun _ => True := by
  refine .tryCatch (.bind (outline_quiet_true (every_turn fun e s => ?_)) .true fun begun => ?_)
    (fun _ => .true) showError_outline
  · unfold Page.beginPairing
    cases s.authorization with
    | none => exact ⟨rfl, .inl rfl⟩
    | some authorization =>
      simp only
      split
      · exact ⟨rfl, .inl rfl⟩
      · cases normalizeReceiverHost s.address with
        | error message => exact .refl s
        | ok host => exact ⟨rfl, .inl rfl⟩
  cases begun with
  | expired write =>
    exact outline_quiet_true (every_bind (quiet_of_still (settle_still write)) fun _ => every_throw _)
  | invalid message => exact outline_quiet_true (every_throw message)
  | ready host write =>
    refine .bind (outline_quiet_true (quiet_of_still (settle_still write))) .true fun _ => ?_
    refine .bind (outline_quiet_true (quiet_of_still getOrCreateSenderId_still)) .true fun senderId => ?_
    refine .bind (withHostPermission_outline (R := fun _ => True) host .true (fun _ => .true) ?_)
      .true fun trusted => ?_
    · refine .bind (outline_quiet_true (every_turn fun _ s => .refl s)) .true fun authorization => ?_
      refine .bind (pairReceiver_outline host authorization senderId) .true fun paired => ?_
      refine saveTrustedReceiver_outline (stable_held fun _ _ => List.mem_append_left _)
        (fun _ => ⟨rfl, rfl⟩) ?_
      intro device log hcredential hheld horderly
      refine (hheld horderly).2.mono fun since hexchanged => ?_
      refine ⟨i, paired, device, ?_, hcredential, rfl⟩
      exact (List.singleton_sublist.mpr hexchanged).append (List.Sublist.refl [Event.completed i device])
    · refine outline_quiet_true (every_bind (every_turn fun _ s => ⟨rfl, .inl rfl⟩) fun _ => ?_)
      exact every_bind (quiet_of_still clearPendingState_still) fun _ => cleanup_quiet _

theorem forgetPairing_outline :
    Attempt.Outline discipline i (fun _ => True) (forgetPairing i) (fun _ _ => True)
      fun _ => True := by
  refine .bind (.tryCatch (.bind (outline_request .true (fun _ => .true) fun _ s hs _ => ?_) .true
    fun _ => outline_quiet_true (cleanup_quiet [])) (fun _ => .true) showError_outline) .true
    fun _ => outline_quiet_true
      (every_bind (quiet_of_still (renderTrusted_still none)) fun _ => quiet_of_still refreshAuthorization_still)
  refine ⟨hs.remove rfl rfl, ⟨[.removed i], rfl, fun e he => ?_⟩, trivial⟩
  rw [List.mem_singleton.mp he]
  rfl

theorem loadPairingState_outline :
    Attempt.Outline discipline i (fun _ => True) (loadPairingState i) (fun _ _ => True)
      fun _ => True := by
  refine .bind (outline_quiet_true getTrustedReceiver_quiet) .true fun trusted => ?_
  refine .bind (outline_quiet_true (quiet_of_still (renderTrusted_still trusted))) .true fun _ => ?_
  refine .bind (Q := fun _ _ => True) (outline_quiet_true ?_) .true fun pending => ?_
  · split
    · exact every_pure _
    · exact quiet_of_still getPendingPairing_still
  refine .bind (.tryCatch (outline_quiet_true (cleanup_quiet _)) (fun _ => .true)
    showError_outline) .true fun _ => outline_quiet_true ?_
  cases trusted with
  | some trusted => exact quiet_of_still clearPendingState_still
  | none =>
    cases pending with
    | none => exact quiet_of_still refreshAuthorization_still
    | some pending =>
      refine every_bind (every_turn fun _ s => ⟨rfl, .inl rfl⟩) fun _ => ?_
      split
      · exact every_pure _
      · exact every_bind (hasHostPermission_quiet _) fun _ => every_pure _

theorem operate_outline (operation : Operation) :
    Attempt.Outline discipline i (fun _ => True) (operate i operation) (fun _ _ => True)
      fun _ => True := by
  cases operation with
  | loadPairingState => exact loadPairingState_outline
  | completePairing => exact completePairing_outline
  | updateTrustedHost => exact updateTrustedHost_outline
  | forgetPairing => exact forgetPairing_outline
  | refreshAuthorization => exact outline_quiet_true (quiet_of_still refreshAuthorization_still)
  | input text => exact outline_quiet_true (quiet_of_still (input_still text))
  | typePairedHost text => exact outline_quiet_true (every_turn fun _ _ => ⟨rfl, .inl rfl⟩)

end Operations

section Runs

/-- The configurations that the page reaches. -/
def Reachable (initial : Page) : Config Nat Page Outside → Prop :=
  Config.Reaches spawn (fun _ _ _ => True) (Config.idle initial)

/-- In every run whose removals are orderly, a forgotten device stays forgotten. -/
theorem forget_is_final {initial : Page} (hinitial : initial.log = [])
    {c : Config Nat Page Outside} (h : Reachable initial c) (horderly : Orderly c.state.log) :
    Final c.state.log ∧ ∀ record, c.state.trusted = some record →
      Since c.state.log (Renewed (record.credential.getD [])) := by
  have hstart : Kept initial := by
    intro _
    rw [hinitial]
    constructor
    · intro front e back device hsplit
      simp at hsplit
    · intro record _ front i back hsplit
      simp at hsplit
  have hjobs : ∀ i operation s, discipline.invariant s → True → True →
      (spawn i operation).Meets discipline i (fun _ _ => True) s := by
    intro i operation s hs _ _
    refine Program.Meets.bind hs ((operate_outline operation s hs trivial).mono ?_)
    intro result t ht _ u hu hi
    trivial
  have hkept : Config.Kept discipline (fun _ _ => True) c :=
    Config.ReachesOffered.kept h.offered hstart (fun _ => .true) (fun _ => trivial) hjobs
  exact hkept.1 horderly

/-- A device whose credential repeats one byte. -/
def device (c : UInt8) (host : Text) (hc : hexTest 64 (List.replicate 64 c) = true) :
    TrustedDevice where
  senderId := ascii "0123456789abcdef"
  deviceId := List.replicate 32 0x61
  credential := List.replicate 64 c
  host := host
  pairedAt := 0
  hsender := by decide
  hdevice := by decide
  hcredential := hc

def oldDevice : TrustedDevice := device 0x62 defaultReceiverHost (by decide)
def movedDevice : TrustedDevice := device 0x62 "192.168.1.5".toList (by decide)
def newDevice : TrustedDevice := device 0x63 defaultReceiverHost (by decide)

def remembered : Page where
  trusted := some oldDevice.toRecord
  senderId := some oldDevice.senderId
  pending := none
  authorization := some ⟨List.replicate 32 0x30, List.replicate 64 0x30, 60000, ascii "000000"⟩
  address := defaultReceiverHost
  pairedHost := "192.168.1.5".toList
  writesQueued := 0
  writesSettled := 0
  log := []

/-- The device is forgotten and then paired again. -/
def pairedAgain : List (Move Nat Outside Operation) :=
  [.start 0 .forgetPairing, .step 0 {}, .start 1 .completePairing] ++
    List.replicate 10 (.step 1
      { response := .ok ⟨some newDevice.deviceId, some newDevice.credential⟩ })

theorem paired_again_is_renewed : ∃ c, Reachable remembered c ∧
    c.state.trusted = some newDevice.toRecord ∧ Final c.state.log ∧
    Since c.state.log (Renewed newDevice.credential) := by
  have hrun : (Config.follow spawn (fun _ _ _ => True) (fun _ _ _ => True) pairedAgain
      (Config.idle remembered)).any (fun c => c.state.trusted = some newDevice.toRecord ∧
        c.state.log = [.removed 0, .exchanged 1 newDevice, .completed 1 newDevice]) = true := by
    decide
  obtain ⟨c, hc, hends⟩ := (Option.any_eq_true _ _).mp hrun
  obtain ⟨htrusted, hlog⟩ := of_decide_eq_true hends
  have hreach : Reachable remembered c := (Config.ReachesOffered.follow .refl _ hc).reaches
  have horderly : Orderly c.state.log := by
    rintro front i back hsplit j ⟨before, e, rest, rfl, -, htakes, -⟩
    rw [hlog] at hsplit
    simp only [List.append_assoc, List.cons_append] at hsplit
    rcases before with _ | ⟨f, before⟩
    · simp only [List.nil_append, List.cons.injEq] at hsplit
      obtain ⟨rfl, -⟩ := hsplit
      cases htakes
    · have hlater := congrArg List.tail hsplit
      simp only [List.tail_cons, List.cons_append] at hlater
      have hmem : Event.removed i ∈ [Event.exchanged 1 newDevice, .completed 1 newDevice] := by
        rw [hlater]
        simp
      simp at hmem
  obtain ⟨hfinal, hkept⟩ := forget_is_final rfl hreach horderly
  exact ⟨c, hreach, htrusted, hfinal, hkept _ htrusted⟩

/-- While `updateTrustedHost` waits for the permission of the user, the device is forgotten. -/
def forgottenAtPrompt : List (Move Nat Outside Operation) :=
  [.start 0 .updateTrustedHost, .step 0 {}, .step 0 {}, .step 0 {},
    .step 0 { granted := false }, .step 0 {}, .start 1 .forgetPairing, .step 1 {},
    .step 0 {}, .step 0 {}, .step 0 {}]

theorem old_credential_returns : ∃ c, Reachable remembered c ∧
    c.state.log = [.read 0 oldDevice.toRecord, .removed 1, .updated 0 movedDevice] ∧
    c.state.trusted = some movedDevice.toRecord ∧
    movedDevice.credential = oldDevice.credential ∧ ¬ Final c.state.log := by
  have hrun : (Config.follow spawn (fun _ _ _ => True) (fun _ _ _ => True) forgottenAtPrompt
      (Config.idle remembered)).any (fun c =>
        c.state.log = [.read 0 oldDevice.toRecord, .removed 1, .updated 0 movedDevice] ∧
        c.state.trusted = some movedDevice.toRecord) = true := by
    decide
  obtain ⟨c, hc, hends⟩ := (Option.any_eq_true _ _).mp hrun
  obtain ⟨hlog, htrusted⟩ := of_decide_eq_true hends
  have hreach : Reachable remembered c := (Config.ReachesOffered.follow .refl _ hc).reaches
  refine ⟨c, hreach, hlog, htrusted, rfl, ?_⟩
  intro hfinal
  have hsince := hfinal [.read 0 oldDevice.toRecord, .removed 1] (.updated 0 movedDevice) []
    movedDevice hlog rfl
  obtain ⟨j, exchanged, kept, hsub, -⟩ := hsince [.read 0 oldDevice.toRecord] 1 [] rfl
  have hlength := hsub.length_le
  simp at hlength

end Runs

end HarmonyScreen.Proofs.Forgetting
