import HarmonyScreen.Proofs.Forgetting
import HarmonyScreen.Proofs.ReceiverHost

namespace HarmonyScreen.Proofs.HostPermissions
open Lib
open Receiver
open Extension
open Extension.DirectProtocol
open Extension.HostPermissions
open Extension.Setup
open Forgetting ReceiverHost

section Alone

/-- The host that a stored device names has its origin granted. -/
def Covered (s : Page) : Prop :=
  ∀ record host origin, s.trusted = some record → record.host = some host →
    manualHostOrigin host = .ok (some origin) → origin ∈ s.origins

/-- What is not a manual private origin stays granted. -/
def Spares (s t : Page) : Prop :=
  ∀ origin ∈ s.origins, isManualPrivateIpv4Origin origin = false → origin ∈ t.origins

/-- One operation runs at a time, and nobody else changes what is granted. -/
def alone : Discipline Unit Page Outside where
  invariant := Covered
  offers _ s e := e.origins = s.origins
  rely _ := Eq
  guarantee _ := Spares
  refl _ _ := rfl
  trans _ _ _ _ := Eq.trans
  compatible hne := absurd rfl hne

def Ends (Q : α → Page → Prop) (E : String → Page → Prop) : Except String α → Page → Prop
  | .ok a, t => Q a t
  | .error message, t => E message t

/-- From this state the function returns with `Q` or fails with `E`. -/
def Does (s : Page) (x : Async α) (Q : α → Page → Prop) (E : String → Page → Prop) : Prop :=
  x.run.Meets alone () (Ends Q E) s

variable {α β : Type} {s : Page} {x : Async α} {Q Q' : α → Page → Prop} {E E' : String → Page → Prop}

namespace Does

theorem mono (hx : Does s x Q E) (hQ : ∀ a t, Covered t → Q a t → Q' a t)
    (hE : ∀ message t, Covered t → E message t → E' message t) : Does s x Q' E' := by
  refine Program.Meets.mono hx fun r t ht h => ?_
  cases r with
  | ok a => exact hQ a t ht h
  | error message => exact hE message t ht h

theorem pure (a : α) (h : Q a s) : Does s (Pure.pure a) Q E := by
  rintro _ rfl -
  exact h

theorem throw (message : String) (h : E message s) : Does s (throw message) Q E := by
  rintro _ rfl -
  exact h

theorem ofResult (result : Except String α) (hQ : ∀ a, result = .ok a → Q a s)
    (hE : ∀ message, result = .error message → E message s) :
    Does s (Attempt.ofResult result) Q E := by
  cases result with
  | ok a => exact pure a (hQ a rfl)
  | error message => exact throw message (hE message rfl)

theorem bind {f : α → Async β} {Q : β → Page → Prop} (hs : Covered s)
    (hx : Does s x (fun a t => Covered t → Does t (f a) Q E) E) : Does s (x >>= f) Q E := by
  rw [Does, Attempt.run_bind]
  refine Program.Meets.bind hs (Program.Meets.mono hx fun r t ht h => ?_)
  cases r with
  | ok a => exact h ht
  | error message => exact throw message h

theorem tryCatch {handle : String → Async α} (hs : Covered s)
    (hx : Does s x Q fun message t => Covered t → Does t (handle message) Q E) :
    Does s (tryCatch x handle) Q E := by
  rw [Does, Attempt.run_tryCatch]
  refine Program.Meets.bind hs (Program.Meets.mono hx fun r t ht h => ?_)
  cases r with
  | ok a => exact pure a h
  | error message => exact h ht

theorem turn {f : Outside → Page → α × Page}
    (h : ∀ e, e.origins = s.origins →
      Covered (f e s).2 ∧ Spares s (f e s).2 ∧ Q (f e s).1 (f e s).2) :
    Does s (Attempt.turn f) Q E := by
  rintro _ rfl - - e he
  obtain ⟨hcovered, hspares, hq⟩ := h e he
  exact ⟨hcovered, hspares, pure _ hq⟩

/-- A request that is rejected leaves things as they were. -/
theorem request {serve : Outside → Page → α × Page} (hs : Covered s)
    (h : ∀ e, e.origins = s.origins →
      Covered (serve e s).2 ∧ Spares s (serve e s).2 ∧ Q (serve e s).1 (serve e s).2)
    (hE : ∀ message, E message s) : Does s (Setup.request serve) Q E := by
  have hwait : ∀ (r : Except String α) t, Covered t → Ends Q E r t →
      Does t (ExceptT.lift (Program.await fun _ => true) >>= fun _ => ExceptT.mk (Pure.pure r)) Q
        E := by
    intro r t ht hr
    refine bind ht ?_
    rintro _ rfl hcovered - e -
    refine ⟨hcovered, fun _ horigin _ => horigin, ?_⟩
    rintro _ rfl - -
    rintro _ rfl -
    exact hr
  refine bind hs (turn fun e he => ?_)
  cases hfailure : e.failure with
  | none =>
    obtain ⟨hcovered, hspares, hq⟩ := h e he
    exact ⟨hcovered, hspares, fun _ => hwait _ _ hcovered hq⟩
  | some message =>
    exact ⟨hs, fun _ horigin _ => horigin, fun _ => hwait _ _ hs (hE message)⟩

theorem of_still (hx : x.run.Every Still) :
    Does s x (fun _ t => Still s t) fun _ t => Still s t := by
  have hgeneral : ∀ (p : Program Page Outside (Except String α)) t, p.Every Still → Still s t →
      p.Meets alone () (Ends (fun _ t => Still s t) fun _ t => Still s t) t := by
    intro p
    induction p with
    | ret r =>
      rintro t - ht _ rfl -
      cases r <;> exact ht
    | atomic ready act next ih =>
      rintro t hp ht _ rfl hcovered hready e -
      obtain ⟨hstill, hnext⟩ := hp t e hready
      refine ⟨?_, ?_, ih e t _ hnext (ht.trans hstill)⟩
      · intro record host origin hrecord hhost horigin
        rw [hstill.trusted] at hrecord
        rw [hstill.origins]
        exact hcovered record host origin hrecord hhost horigin
      · intro origin horigin _
        rw [hstill.origins]
        exact horigin
  exact hgeneral _ s hx (.refl s)

end Does

end Alone

section Calls
variable {s : Page} {origin host : Text}

/-- No stored device needs the origin. -/
def Unneeded (s : Page) (origin : Text) : Prop :=
  ∀ record host, s.trusted = some record → record.host = some host →
    manualHostOrigin host ≠ .ok (some origin)

theorem contains_does (hs : Covered s) (origin : Text) :
    Does s (contains origin) (fun held t => t = s ∧ held = s.origins.contains origin)
      fun _ t => t = s := by
  refine .request hs (fun e he => ?_) fun _ => rfl
  rw [he]
  exact ⟨hs, fun _ horigin _ => horigin, rfl, rfl⟩

theorem getAll_does (hs : Covered s) :
    Does s getAll (fun granted t => t = s ∧ granted = s.origins) fun _ t => t = s := by
  refine .request hs (fun e he => ?_) fun _ => rfl
  rw [he]
  exact ⟨hs, fun _ horigin _ => horigin, rfl, rfl⟩

theorem requestOrigin_does (hs : Covered s) (origin : Text) :
    Does s (requestOrigin origin)
      (fun granted t =>
        t = { s with origins := if granted then origin :: s.origins else s.origins })
      fun _ t => t = s := by
  refine .request hs (fun e he => ?_) fun _ => rfl
  rw [he]
  have hmore : ∀ o ∈ s.origins, o ∈ if e.granted = true then origin :: s.origins else s.origins := by
    intro o ho
    split
    · exact List.mem_cons_of_mem _ ho
    · exact ho
  refine ⟨?_, fun o ho _ => hmore o ho, rfl⟩
  intro record host o hrecord hhost ho
  exact hmore o (hs record host o hrecord hhost ho)

theorem remove_does (hs : Covered s) (hmanual : isManualPrivateIpv4Origin origin = true)
    (hfree : Unneeded s origin) :
    Does s (remove origin)
      (fun removed t => t =
        { s with origins := if removed then s.origins.filter (· ≠ origin) else s.origins })
      fun _ t => t = s := by
  refine .request hs (fun e he => ?_) fun _ => rfl
  rw [he]
  have hrest : ∀ o ∈ s.origins, o ≠ origin →
      o ∈ if e.granted = true then s.origins.filter (· ≠ origin) else s.origins := by
    intro o ho hne
    split
    · exact List.mem_filter.mpr ⟨ho, by simpa using hne⟩
    · exact ho
  refine ⟨?_, ?_, rfl⟩
  · intro record host o hrecord hhost ho
    refine hrest o (hs record host o hrecord hhost ho) ?_
    rintro rfl
    exact hfree record host hrecord hhost ho
  · intro o ho hother
    refine hrest o ho ?_
    rintro rfl
    rw [hmanual] at hother
    cases hother

theorem revokeHostPermission_does (hs : Covered s) (hmanual : isManualPrivateIpv4Origin origin = true)
    (hfree : Unneeded s origin) :
    Does s (revokeHostPermission (some origin))
      (fun _ t => t = { s with origins := s.origins.filter (· ≠ origin) }) fun _ t => t = s := by
  refine .bind hs ((remove_does hs hmanual hfree).mono ?_ fun _ _ _ h => h)
  rintro removed t ht rfl -
  cases removed with
  | true => exact .pure _ rfl
  | false => exact .throw _ rfl

/-- What is held once the permission for a host has been asked for. -/
structure Leased (host : Text) (s : Page) (lease : Lease) (t : Page) : Prop where
  origin : manualHostOrigin host = .ok lease.origin
  granted : ∀ o, lease.origin = some o → o ∈ t.origins
  same : t = { s with origins := t.origins }
  found : lease.added = false → t.origins = s.origins
  added : lease.added = true → ∃ o, lease.origin = some o ∧ o ∉ s.origins ∧ t.origins = o :: s.origins

theorem acquireHostPermission_does (hs : Covered s) (host : Text) :
    Does s (acquireHostPermission host) (Leased host s) fun _ t => t = s := by
  refine .bind hs (.ofResult _ (fun origin horigin _ => ?_) fun _ _ => rfl)
  cases origin with
  | none =>
    refine .pure _ ⟨horigin, ?_, rfl, fun _ => rfl, ?_⟩
    · rintro o ⟨⟩
    · rintro ⟨⟩
  | some origin =>
    refine .bind hs ((contains_does hs origin).mono ?_ fun _ _ _ h => h)
    rintro held t - ⟨rfl, hheld⟩ -
    cases held with
    | true =>
      refine .pure _ ⟨horigin, ?_, rfl, fun _ => rfl, ?_⟩
      · rintro o ⟨⟩
        exact List.contains_iff_mem.mp hheld.symm
      · rintro ⟨⟩
    | false =>
      refine .bind hs ((requestOrigin_does hs origin).mono ?_ fun _ _ _ h => h)
      rintro granted t ht rfl -
      cases granted with
      | false => exact .throw _ rfl
      | true =>
        refine .pure _ ⟨horigin, ?_, rfl, ?_, fun _ => ⟨origin, rfl, ?_, rfl⟩⟩
        · rintro o ⟨⟩
          exact List.mem_cons_self ..
        · rintro ⟨⟩
        · intro hmem
          rw [List.contains_iff_mem.mpr hmem] at hheld
          cases hheld

end Calls

section Lease
variable {s : Page} {x : Async α} {Q : α → Page → Prop} {host : Text}

/-- What a guarded step leaves that fails. -/
structure Unstored (s t : Page) : Prop where
  origins : t.origins = s.origins
  trusted : t.trusted = s.trusted
  log : Appends (fun e => stored e = none) s t

/-- What was granted before is granted still, and no more is, or the failure to take it back is
reported. -/
structure RolledBack (s : Page) (message : String) (t : Page) : Prop where
  kept : ∀ o ∈ s.origins, o ∈ t.origins
  restored : (∀ o ∈ t.origins, o ∈ s.origins) ∨ message = "操作失败，且临时地址权限未能撤销"
  log : Appends (fun e => stored e = none) s t

theorem RolledBack.unchanged {t : Page} (message : String) (horigins : t.origins = s.origins)
    (hlog : Appends (fun e => stored e = none) s t) : RolledBack s message t := by
  refine ⟨?_, .inl ?_, hlog⟩
  · rw [horigins]
    exact fun _ ho => ho
  · rw [horigins]
    exact fun _ ho => ho

theorem withHostPermission_does (hs : Covered s)
    (hx : ∀ lease t, Covered t → Leased host s lease t → Does t x Q fun _ u => Unstored t u) :
    Does s (withHostPermission host x) Q (RolledBack s) := by
  refine .bind hs ((acquireHostPermission_does hs host).mono ?_ ?_)
  · rintro lease t - hlease ht
    refine .tryCatch ht ((hx lease t ht hlease).mono (fun _ _ _ h => h) ?_)
    rintro message u - hu hcovered
    have hlog : Appends (fun e => stored e = none) s u := by
      have hstart : Appends (fun e => stored e = none) s t := by
        rw [hlease.same]
        exact .refl s
      exact hstart.trans hu.log
    cases hadded : lease.added with
    | false =>
      refine .throw _ (.unchanged _ ?_ hlog)
      exact hu.origins.trans (hlease.found hadded)
    | true =>
      obtain ⟨origin, horigin, hnew, horigins⟩ := hlease.added hadded
      have hgranted : u.origins = origin :: s.origins := hu.origins.trans horigins
      have hmanual : isManualPrivateIpv4Origin origin = true :=
        manual_origin (hlease.origin.trans (congrArg _ horigin))
      have hfree : Unneeded u origin := by
        intro record other hrecord hother hneeds
        have htrusted : u.trusted = s.trusted := by
          rw [hu.trusted, hlease.same]
        rw [htrusted] at hrecord
        exact hnew (hs record other origin hrecord hother hneeds)
      have hrestored : u.origins.filter (· ≠ origin) = s.origins := by
        rw [hgranted, List.filter_cons_of_neg (by simp), List.filter_eq_self]
        intro o ho
        simpa using ne_of_mem_of_not_mem ho hnew
      rw [horigin]
      refine .bind hcovered (.tryCatch hcovered
        ((revokeHostPermission_does hcovered hmanual hfree).mono ?_ ?_))
      · rintro _ v - rfl -
        exact .throw _ (.unchanged _ hrestored hlog)
      · rintro _ v - rfl -
        refine .throw _ ⟨?_, .inr rfl, hlog⟩
        rw [hgranted]
        exact fun o ho => List.mem_cons_of_mem _ ho
  · rintro message t - rfl
    exact .unchanged _ rfl (.refl _)

end Lease

section Cleanup
variable {s t : Page} {usedHosts : List Text}

theorem revokeAll_does (hs : Covered s) {origins : List Text}
    (hmanual : ∀ o ∈ origins, isManualPrivateIpv4Origin o = true)
    (hfree : ∀ o ∈ origins, Unneeded s o) :
    Does s (revokeAll origins)
      (fun _ t => t = { s with origins := s.origins.filter fun o => !origins.contains o })
      fun _ t => t = { s with origins := t.origins } := by
  induction origins generalizing s with
  | nil =>
    refine .pure _ ?_
    simp
  | cons origin origins ih =>
    have hfirst := hfree origin (List.mem_cons_self ..)
    refine .bind hs ((revokeHostPermission_does hs (hmanual origin (List.mem_cons_self ..))
      hfirst).mono ?_ ?_)
    · rintro _ t - rfl hcovered
      refine (ih hcovered (fun o ho => hmanual o (List.mem_cons_of_mem _ ho)) fun o ho => ?_).mono
        ?_ fun _ _ _ h => h
      · exact hfree o (List.mem_cons_of_mem _ ho)
      · rintro _ u - rfl
        have hsame : (s.origins.filter (· ≠ origin)).filter (fun o => !origins.contains o) =
            s.origins.filter fun o => !(origin :: origins).contains o := by
          rw [List.filter_filter]
          apply List.filter_congr
          intro o _
          simp [Bool.and_comm]
        rw [hsame]
    · rintro _ t - rfl
      rfl

theorem mem_mapM_ok {f : Text → Except String (Option Text)} {out : List (Option Text)}
    (h : usedHosts.mapM f = .ok out) (o : Option Text) :
    o ∈ out ↔ ∃ used ∈ usedHosts, f used = .ok o := by
  induction usedHosts generalizing out with
  | nil =>
    cases h
    simp
  | cons used usedHosts ih =>
    rw [List.mapM_cons] at h
    cases hused : f used with
    | error message =>
      rw [hused] at h
      cases h
    | ok first =>
      rw [hused] at h
      cases hrest : usedHosts.mapM f with
      | error message =>
        rw [hrest] at h
        cases h
      | ok rest =>
        rw [hrest] at h
        cases h
        simp [ih hrest, hused, eq_comm]

/-- Of the manual private origins, only those of the hosts in use are left. -/
structure Cleaned (usedHosts : List Text) (s t : Page) : Prop where
  same : t = { s with origins := t.origins }
  used : ∀ o ∈ t.origins, isManualPrivateIpv4Origin o = true →
    ∃ host ∈ usedHosts, manualHostOrigin host = .ok (some o)

theorem cleanup_does (hs : Covered s)
    (hused : ∀ record host o, s.trusted = some record → record.host = some host →
      manualHostOrigin host = .ok (some o) →
        ∃ used ∈ usedHosts, manualHostOrigin used = .ok (some o)) :
    Does s (cleanupUnusedManualHostPermissions usedHosts) (fun _ => Cleaned usedHosts s)
      fun _ t => t = { s with origins := t.origins } := by
  refine .bind hs (.ofResult _ (fun usedOrigins hmap _ => ?_) fun _ _ => rfl)
  have hmem := mem_mapM_ok hmap
  refine .bind hs ((getAll_does hs).mono ?_ ?_)
  · rintro granted t - ⟨rfl, rfl⟩ -
    have hunused : ∀ o ∈ t.origins.filter
        (fun origin => isManualPrivateIpv4Origin origin && !usedOrigins.contains (some origin)),
        isManualPrivateIpv4Origin o = true ∧ some o ∉ usedOrigins := by
      intro o ho
      have := (List.mem_filter.mp ho).2
      simpa using this
    refine (revokeAll_does hs (fun o ho => (hunused o ho).1) fun o ho => ?_).mono ?_
      fun _ _ _ h => h
    · intro record host hrecord hhost horigin
      exact (hunused o ho).2 ((hmem _).mpr (hused record host o hrecord hhost horigin))
    · rintro _ u - rfl
      refine ⟨rfl, fun o ho hmanual => ?_⟩
      rw [← hmem]
      obtain ⟨ho, hkept⟩ := List.mem_filter.mp ho
      simp only [Bool.not_eq_true', List.contains_eq_mem, decide_eq_false_iff_not, List.mem_filter,
        not_and, Bool.and_eq_true, hmanual, true_and, not_not] at hkept
      exact hkept ho
  · rintro _ t - rfl
    rfl

end Cleanup

section Stored
variable {s t : Page} {record : DeviceRecord} {device : TrustedDevice}

theorem validateTrustedDevice_host (h : validateTrustedDevice record = .ok device) :
    normalizeReceiverHost (record.host.getD defaultReceiverHost) = .ok device.host := by
  unfold validateTrustedDevice at h
  dsimp only at h
  split at h
  · split at h
    · rename_i hhost
      cases h
      exact hhost
    · cases h
  · cases h

/-- A write of a device whose host has its origin granted. -/
theorem saveTrustedReceiver_does (hs : Covered s) (saved : TrustedDevice → Event)
    (hgranted : ∀ o, manualHostOrigin (record.host.getD defaultReceiverHost) = .ok (some o) →
      o ∈ s.origins) :
    Does s (saveTrustedReceiver saved record)
      (fun device t => t = { s with
        trusted := some device.toRecord, log := s.log ++ [saved device] })
      fun _ t => t = s := by
  refine .bind hs (.ofResult _ (fun device hdevice _ => ?_) fun _ _ => rfl)
  have hhost := origin_normalized (validateTrustedDevice_host hdevice)
  refine .bind hs (.request hs (fun e _ => ⟨?_, fun _ ho _ => ho, fun _ => .pure _ rfl⟩)
    fun _ => rfl)
  rintro _ host o ⟨⟩ ⟨⟩ horigin
  exact hgranted o (hhost.symm.trans horigin)

/-- What the storage turns out to hold. -/
structure Fetched (s : Page) (trusted : Option TrustedDevice) (t : Page) : Prop where
  origins : t.origins = s.origins
  log : Appends (fun e => stored e = none) s t
  none : trusted = none → t.trusted = none
  some : ∀ device, trusted = some device →
    ∃ record, t.trusted = some record ∧ validateTrustedDevice record = .ok device

theorem getTrustedReceiver_does (hs : Covered s) {observed : DeviceRecord → List Event}
    (hobserved : ∀ record, ∀ e ∈ observed record, stored e = none) :
    Does s (getTrustedReceiver observed) (Fetched s)
      fun _ t => t.origins = s.origins ∧ Appends (fun e => stored e = none) s t := by
  refine .bind hs (.request hs (fun e _ => ⟨hs, fun _ ho _ => ho, fun hcovered => ?_⟩) fun _ => ?_)
  · dsimp only
    have hlog : Appends (fun e => stored e = none) s
        { s with log := s.log ++ (s.trusted.map observed).getD [] } := by
      refine ⟨_, rfl, fun e he => ?_⟩
      cases hrecord : s.trusted with
      | none =>
        rw [hrecord] at he
        cases he
      | some record =>
        rw [hrecord] at he
        exact hobserved record e he
    cases hrecord : s.trusted with
    | none =>
      rw [hrecord] at hlog
      refine .pure _ ⟨rfl, hlog, fun _ => rfl, ?_⟩
      rintro _ ⟨⟩
    | some record =>
      rw [hrecord] at hlog hcovered
      simp only [checkTrustedReceiver]
      split
      · rename_i device hdevice
        refine .pure _ ⟨rfl, hlog, ?_, ?_⟩
        · rintro ⟨⟩
        · rintro _ ⟨⟩
          exact ⟨record, rfl, hdevice⟩
      · refine .bind hcovered (.request hcovered (fun e _ => ⟨?_, fun _ ho _ => ho, fun _ => ?_⟩)
          fun _ => ⟨rfl, hlog⟩)
        · rintro _ _ _ ⟨⟩
        · refine .pure _ ⟨rfl, hlog, fun _ => rfl, ?_⟩
          rintro _ ⟨⟩
  · exact ⟨rfl, .refl s⟩

theorem normalizePendingPairing_host {value pending : Pending} {now : Int}
    (h : normalizePendingPairing value now = .ok pending) : pending.host = trim value.host := by
  unfold normalizePendingPairing normalizePendingHost at h
  simp only [bind, Except.bind, pure, Except.pure, throw, throwThe, MonadExceptOf.throw] at h
  split at h
  · cases h
  · split at h
    · cases h
    · split at h
      · cases h
      · rename_i hhost
        split at hhost
        · cases hhost
        · cases hhost
          cases h
          rfl

/-- What was stored for the pairing that waits. -/
theorem getPendingPairing_does (hs : Covered s) :
    Does s getPendingPairing
      (fun pending t => Still s t ∧ ∀ found, pending = some found →
        ∃ value, t.pending = some value ∧ manualHostOrigin value.host = manualHostOrigin found.host)
      fun _ t => Still s t := by
  refine .bind hs (.turn fun e _ => ⟨hs, fun _ ho _ => ho, fun _ => ?_⟩)
  refine .bind hs (.request hs (fun e _ => ⟨hs, fun _ ho _ => ho, fun _ => ?_⟩) fun _ => .refl s)
  dsimp only
  cases hvalue : s.pending with
  | none =>
    refine .pure _ ⟨.refl s, ?_⟩
    rintro _ ⟨⟩
  | some value =>
    dsimp only
    split
    · rename_i pending hpending
      refine .pure _ ⟨.refl s, ?_⟩
      rintro _ ⟨⟩
      refine ⟨value, hvalue, ?_⟩
      rw [normalizePendingPairing_host hpending, origin_trim]
    · refine .bind hs (.request hs (fun e _ => ⟨hs, fun _ ho _ => ho, fun _ => ?_⟩)
        fun _ => .refl s)
      refine .pure _ ⟨⟨rfl, rfl, rfl⟩, ?_⟩
      rintro _ ⟨⟩

end Stored

section Operations
variable {s t : Page} {i : Nat}

/-- The host of the stored device needs the origin. -/
def HeldByDevice (t : Page) (origin : Text) : Prop :=
  ∃ record host, t.trusted = some record ∧ record.host = some host ∧
    manualHostOrigin host = .ok (some origin)

/-- No device is stored, and the host of the pairing that waits needs the origin. -/
def HeldByPending (t : Page) (origin : Text) : Prop :=
  t.trusted = none ∧ ∃ pending, t.pending = some pending ∧
    manualHostOrigin pending.host = .ok (some origin)

/-- No manual private origin is granted that is not needed. -/
def Tidy (t : Page) : Prop :=
  ∀ origin ∈ t.origins, isManualPrivateIpv4Origin origin = true →
    HeldByDevice t origin ∨ HeldByPending t origin

/-- An operation that reports no failure leaves things tidy. -/
def Leaves (i : Nat) (s t : Page) : Prop :=
  ∃ more, t.log = s.log ++ more ∧ ((∀ message, .failed i message ∉ more) → Tidy t)

theorem showError_does (hs : Covered s) (message : String) {E : String → Page → Prop} :
    Does s (showError i message)
      (fun _ t => t = { s with log := s.log ++ [.failed i message] }) E :=
  .turn fun _ _ => ⟨hs, fun _ ho _ => ho, rfl⟩

theorem renderTrusted_does (hs : Covered s) (trusted : Option TrustedDevice)
    {E : String → Page → Prop} :
    Does s (renderTrusted trusted) (fun _ t => t = s.renderTrusted trusted) E :=
  .turn fun _ _ => ⟨hs, fun _ ho _ => ho, rfl⟩

/-- A cleanup behind which a failure is shown. -/
theorem cleanup_shown_does (hs : Covered s) {usedHosts : List Text}
    (hused : ∀ record host o, s.trusted = some record → record.host = some host →
      manualHostOrigin host = .ok (some o) →
        ∃ used ∈ usedHosts, manualHostOrigin used = .ok (some o)) {E : String → Page → Prop} :
    Does s (tryCatch (cleanupUnusedManualHostPermissions usedHosts) fun error => showError i error)
      (fun _ t => t.trusted = s.trusted ∧ t.pending = s.pending ∧ ∃ more, t.log = s.log ++ more ∧
        ((∀ message, .failed i message ∉ more) → Cleaned usedHosts s t)) E := by
  refine .tryCatch hs ((cleanup_does hs hused).mono ?_ ?_)
  · intro _ t _ h
    rw [h.same]
    exact ⟨rfl, rfl, [], (List.append_nil _).symm, fun _ => ⟨rfl, h.used⟩⟩
  · intro message t _ h hcovered
    refine (showError_does hcovered message).mono ?_ fun _ _ _ h => h
    rintro _ u - rfl
    rw [h]
    refine ⟨rfl, rfl, _, rfl, fun hnone => ?_⟩
    exact absurd (List.mem_singleton_self _) (hnone message)

/-- The origin that the host of a record needs, from the device that was read from it. -/
theorem origin_of_device {record : DeviceRecord} {device : TrustedDevice} {origin : Text}
    (hdevice : validateTrustedDevice record = .ok device) :
    manualHostOrigin device.host = .ok (some origin) ↔
      ∃ host, record.host = some host ∧ manualHostOrigin host = .ok (some origin) := by
  rw [origin_normalized (validateTrustedDevice_host hdevice)]
  cases record.host with
  | none =>
    have hdefault : manualHostOrigin defaultReceiverHost = .ok none := by
      rw [manualHostOrigin, normalize_default]
      exact if_pos rfl
    simp [hdefault]
  | some host => simp

theorem validManualPermissionHost_ok {host normalized : Text}
    (h : validManualPermissionHost host = some normalized) :
    normalizeReceiverHost host = .ok normalized := by
  unfold validManualPermissionHost at h
  split at h
  · cases h
  · rename_i found hfound
    split at h
    · cases h
      exact hfound
    · cases h

theorem hasHostPermission_does (hs : Covered s) (host : Text) :
    Does s (hasHostPermission host) (fun _ t => t = s) fun _ t => t = s := by
  refine .bind hs (.ofResult _ (fun origin _ _ => ?_) fun _ _ => rfl)
  cases origin with
  | none => exact .pure _ rfl
  | some origin => exact (contains_does hs origin).mono (fun _ _ _ h => h.1) fun _ _ _ h => h

theorem loadPairingState_does (hs : Covered s) :
    Does s (loadPairingState i) (fun _ t => Leaves i s t) fun _ _ => True := by
  have hquiet : ∀ record : DeviceRecord, ∀ e ∈ ([] : List Event), stored e = none := by
    intro _ e he
    cases he
  refine .bind hs ((getTrustedReceiver_does hs hquiet).mono ?_ fun _ _ _ _ => trivial)
  intro trusted t _ hfetched ht
  refine .bind ht ((renderTrusted_does ht trusted).mono ?_ fun _ _ _ h => h)
  rintro _ u - rfl hu
  obtain ⟨before, hbefore, -⟩ := hfetched.log
  cases trusted with
  | some device =>
    obtain ⟨record, hrecord, hdevice⟩ := hfetched.some device rfl
    refine .bind hu (.pure _ fun _ => .bind hu ((cleanup_shown_does hu ?_).mono ?_
      fun _ _ _ h => h))
    · intro other host o hother hhost horigin
      obtain rfl : other = record := Option.some.inj (hother.symm.trans hrecord)
      exact ⟨_, List.mem_singleton_self _, (origin_of_device hdevice).mpr ⟨host, hhost, horigin⟩⟩
    · rintro _ v - ⟨htrusted, -, more, hlog, hcleaned⟩ hv
      refine (Does.of_still clearPendingState_still).mono ?_ fun _ _ _ _ => trivial
      intro _ w _ hstill
      refine ⟨before ++ more, ?_, fun hnone => ?_⟩
      · rw [hstill.log, hlog, ← List.append_assoc, ← hbefore]
        rfl
      · intro origin horigin hmanual
        rw [hstill.origins] at horigin
        have hnone' := fun message hmem => hnone message (List.mem_append_right _ hmem)
        obtain ⟨used, hused, hneeds⟩ := (hcleaned hnone').used origin horigin hmanual
        obtain rfl := List.mem_singleton.mp hused
        obtain ⟨host, hhost, horigin⟩ := (origin_of_device hdevice).mp hneeds
        exact .inl ⟨record, host, (hstill.trusted.trans htrusted).trans hrecord, hhost, horigin⟩
  | none =>
    refine .bind hu ((getPendingPairing_does hu).mono ?_ fun _ _ _ _ => trivial)
    rintro pending v - ⟨hstill, hfound⟩ hv
    have hnone : v.trusted = none := hstill.trusted.trans (hfetched.none rfl)
    refine .bind hv ((cleanup_shown_does hv ?_).mono ?_ fun _ _ _ h => h)
    · intro record _ _ hrecord
      rw [hnone] at hrecord
      cases hrecord
    rintro _ w - ⟨htrusted, hpending, more, hlog, hcleaned⟩ hw
    have hall : w.log = s.log ++ (before ++ more) := by
      rw [hlog, hstill.log, ← List.append_assoc, ← hbefore]
      rfl
    cases pending with
    | none =>
      refine (Does.of_still refreshAuthorization_still).mono ?_ fun _ _ _ _ => trivial
      intro _ x _ hsame
      refine ⟨_, hsame.log.trans hall, fun hquiet origin horigin hmanual => ?_⟩
      rw [hsame.origins] at horigin
      have hclean := hcleaned fun message hmem => hquiet message (List.mem_append_right _ hmem)
      obtain ⟨used, hused, -⟩ := hclean.used origin horigin hmanual
      cases hused
    | some found =>
      obtain ⟨value, hvalue, hsame⟩ := hfound found rfl
      have hleaves : ∀ x : Page, x.trusted = w.trusted → x.pending = w.pending → x.log = w.log →
          x.origins = w.origins → Leaves i s x := by
        intro x hx hp hl ho
        refine ⟨_, hl.trans hall, fun hquiet origin horigin hmanual => ?_⟩
        rw [ho] at horigin
        have hclean := hcleaned fun message hmem => hquiet message (List.mem_append_right _ hmem)
        obtain ⟨used, hused, hneeds⟩ := hclean.used origin horigin hmanual
        refine .inr ⟨hx.trans (htrusted.trans hnone), value, hp.trans (hpending.trans hvalue), ?_⟩
        rw [hsame, ← hneeds]
        exact (origin_normalized (validManualPermissionHost_ok (Option.mem_toList.mp hused))).symm
      refine .bind hw (.turn fun e _ => ⟨hw, fun _ ho _ => ho, fun hcovered => ?_⟩)
      dsimp only
      split
      · exact .pure _ (hleaves _ rfl rfl rfl rfl)
      · refine .bind hcovered ((hasHostPermission_does hcovered _).mono ?_ fun _ _ _ _ => trivial)
        rintro _ x - rfl -
        exact .pure _ (hleaves _ rfl rfl rfl rfl)

/-- A removal that reports no failure takes every manual private origin back. -/
def Emptied (i : Nat) (s t : Page) : Prop :=
  ∃ more, t.log = s.log ++ more ∧ ((∀ message, .failed i message ∉ more) →
    ∀ o ∈ t.origins, isManualPrivateIpv4Origin o = false)

theorem remove_shown_does (hs : Covered s) {E : String → Page → Prop} :
    Does s (tryCatch (forgetTrustedReceiver i >>= fun _ => cleanupUnusedManualHostPermissions [])
      fun error => showError i error) (fun _ t => Emptied i s t) E := by
  have hshown : ∀ (t : Page) more, t.log = s.log ++ more → ∀ message, Covered t →
      Does t (showError i message) (fun _ u => Emptied i s u) E := by
    intro t more hlog message ht
    refine (showError_does ht message).mono ?_ fun _ _ _ h => h
    rintro _ u - rfl
    refine ⟨more ++ [.failed i message], ?_, fun hquiet => ?_⟩
    · rw [hlog, List.append_assoc]
    · exact absurd (List.mem_append_right _ (List.mem_singleton_self _)) (hquiet message)
  refine .tryCatch hs (.bind hs (.request hs (fun e _ => ⟨?_, fun _ ho _ => ho, fun ht => ?_⟩)
    fun message => ?_))
  · rintro _ _ _ ⟨⟩
  · refine (cleanup_does ht ?_).mono ?_ ?_
    · rintro _ _ _ ⟨⟩
    · intro _ u _ hclean
      refine ⟨[.removed i], ?_, fun _ o ho => ?_⟩
      · rw [hclean.same]
      · rw [Bool.eq_false_iff]
        intro hmanual
        obtain ⟨used, hused, -⟩ := hclean.used o ho hmanual
        cases hused
    · intro message u _ hsame
      refine hshown u [.removed i] ?_ message
      rw [hsame]
  · exact hshown s [] (List.append_nil _).symm message

theorem forgetPairing_does (hs : Covered s) :
    Does s (forgetPairing i) (fun _ t => Leaves i s t) fun _ _ => True := by
  refine .bind hs ((remove_shown_does hs).mono ?_ fun _ _ _ h => h)
  rintro _ t - ⟨more, hlog, hempty⟩ ht
  have hrest : (renderTrusted none >>= fun _ => refreshAuthorization).run.Every Still :=
    Attempt.every_bind (renderTrusted_still none) fun _ => refreshAuthorization_still
  refine (Does.of_still hrest).mono ?_ fun _ _ _ _ => trivial
  intro _ u _ hstill
  refine ⟨more, hstill.log.trans hlog, fun hquiet o ho hmanual => ?_⟩
  rw [hstill.origins] at ho
  rw [hempty hquiet o ho] at hmanual
  cases hmanual

/-- What a guarded operation leaves that fails. -/
def Failed (s : Page) (message : String) (t : Page) : Prop :=
  ∃ more, t.log = s.log ++ more ∧ ((∀ e ∈ more, stored e = none) → RolledBack s message t)

/-- What a guarded operation leaves. -/
def Secured (i : Nat) (s t : Page) : Prop :=
  ∃ more, t.log = s.log ++ more ∧
    ((∀ e ∈ more, stored e = none) → (∀ o ∈ s.origins, o ∈ t.origins) ∧
      ((∀ o ∈ t.origins, o ∈ s.origins) ∨
        .failed i "操作失败，且临时地址权限未能撤销" ∈ more)) ∧
    ((∀ message, .failed i message ∉ more) → Tidy t)

/-- What has been stored is tidy in the end. -/
def Settled (s t : Page) : Prop :=
  ∃ more, t.log = s.log ++ more ∧ (∃ e ∈ more, stored e ≠ none) ∧ Tidy t

theorem appends_of_still (h : Still s t) : Appends (fun e => stored e = none) s t := by
  refine ⟨[], h.log.trans (List.append_nil _).symm, fun e he => ?_⟩
  cases he

theorem Failed.unchanged (message : String) (horigins : t.origins = s.origins)
    (hlog : Appends (fun e => stored e = none) s t) : Failed s message t := by
  obtain ⟨more, hmore, hnone⟩ := hlog
  exact ⟨more, hmore, fun _ => .unchanged message horigins ⟨more, hmore, hnone⟩⟩

theorem Failed.of_still (h : Still s t) (message : String) : Failed s message t :=
  .unchanged message h.origins (appends_of_still h)

theorem secured_does {x : Async Unit} (hs : Covered s)
    (hx : Does s x (fun _ t => Settled s t) (Failed s)) {E : String → Page → Prop} :
    Does s (tryCatch x fun error => showError i error) (fun _ t => Secured i s t) E := by
  refine .tryCatch hs (hx.mono ?_ ?_)
  · rintro _ t - ⟨more, hlog, ⟨e, he, hstored⟩, htidy⟩
    refine ⟨more, hlog, fun hnone => absurd (hnone e he) hstored, fun _ => htidy⟩
  · rintro message t - ⟨more, hlog, hfailed⟩ hcovered
    refine (showError_does hcovered message).mono ?_ fun _ _ _ h => h
    rintro _ u - rfl
    refine ⟨more ++ [.failed i message], ?_, fun hnone => ?_, fun hquiet => ?_⟩
    · rw [hlog, List.append_assoc]
    · have hrolled := hfailed fun e he => hnone e (List.mem_append_left _ he)
      refine ⟨hrolled.kept, hrolled.restored.imp_right ?_⟩
      rintro rfl
      exact List.mem_append_right _ (List.mem_singleton_self _)
    · exact absurd (List.mem_append_right _ (List.mem_singleton_self _)) (hquiet message)

theorem Settled.failed {message : String} {more : List Event} (hlog : t.log = s.log ++ more)
    (hstored : ∃ e ∈ more, stored e ≠ none) : Failed s message t := by
  obtain ⟨e, he, hdevice⟩ := hstored
  exact ⟨more, hlog, fun hnone => absurd (hnone e he) hdevice⟩

/-- Sections before the guarded one change nothing that matters. -/
theorem Failed.behind {message : String} {u : Page} (horigins : t.origins = s.origins)
    (hlog : Appends (fun e => stored e = none) s t) (h : RolledBack t message u) :
    Failed s message u := by
  obtain ⟨more, hmore, hnone⟩ := hlog.trans h.log
  refine ⟨more, hmore, fun _ => ⟨?_, ?_, more, hmore, hnone⟩⟩
  · rw [← horigins]
    exact h.kept
  · rw [← horigins]
    exact h.restored

/-- The cleanup behind a device that was stored. -/
theorem settle_does {trusted : TrustedDevice} (ht : Covered t)
    (htrusted : t.trusted = some trusted.toRecord) {more : List Event}
    (hlog : t.log = s.log ++ more) (hstored : ∃ e ∈ more, stored e ≠ none) :
    Does t (cleanupUnusedManualHostPermissions [trusted.host]) (fun _ u => Settled s u)
      (Failed s) := by
  refine (cleanup_does ht ?_).mono ?_ ?_
  · intro record host o hrecord hhost horigin
    rw [htrusted] at hrecord
    cases hrecord
    cases hhost
    exact ⟨_, List.mem_singleton_self _, horigin⟩
  · intro _ u _ hclean
    refine ⟨more, ?_, hstored, fun o ho hmanual => ?_⟩
    · rw [hclean.same]
      exact hlog
    · obtain ⟨used, hused, hneeds⟩ := hclean.used o ho hmanual
      obtain rfl := List.mem_singleton.mp hused
      refine .inl ⟨trusted.toRecord, trusted.host, ?_, rfl, hneeds⟩
      rw [hclean.same]
      exact htrusted
  · intro message u _ hsame
    have hkept : u.log = s.log ++ more := by
      rw [hsame]
      exact hlog
    exact Settled.failed hkept hstored

/-- What the guarded step of a pairing or an update leaves. -/
structure Saved (s : Page) (trusted : TrustedDevice) (t : Page) : Prop where
  trusted : t.trusted = some trusted.toRecord
  log : ∃ more, t.log = s.log ++ more ∧ ∃ e ∈ more, stored e ≠ none

/-- A device whose host is the one that was leased. -/
theorem save_leased_does {host : Text} {lease : Lease} {record : DeviceRecord} {other : Text}
    {saved : TrustedDevice → Event} (hlease : Leased host s lease t)
    (hhost : record.host = some other) (hother : manualHostOrigin other = manualHostOrigin host)
    (hsaved : ∀ device, stored (saved device) = some device) {u : Page} (hu : Covered u)
    (horigins : u.origins = t.origins) (htrusted : u.trusted = t.trusted)
    (hlog : Appends (fun e => stored e = none) t u) :
    Does u (saveTrustedReceiver saved record) (Saved s) fun _ v => Unstored t v := by
  refine (saveTrustedReceiver_does hu saved ?_).mono ?_ ?_
  · intro o ho
    rw [hhost, Option.getD_some, hother, hlease.origin] at ho
    rw [horigins]
    exact hlease.granted o (Except.ok.inj ho)
  · rintro device v - rfl
    obtain ⟨more, hmore, -⟩ := hlog
    refine ⟨rfl, more ++ [saved device], ?_, saved device, by simp, ?_⟩
    · rw [hmore, List.append_assoc, hlease.same]
    · rw [hsaved]
      exact Option.some_ne_none device
  · rintro message v - rfl
    exact ⟨horigins, htrusted, hlog⟩

theorem pairReceiver_does (hs : Covered s) (host : Text) (authorization : Option Authorization)
    (senderId : Bytes) :
    Does s (pairReceiver i host authorization senderId)
      (fun paired t => t.origins = s.origins ∧ t.trusted = s.trusted ∧
        Appends (fun e => stored e = none) s t ∧ normalizeReceiverHost host = .ok paired.host)
      fun _ t => Unstored s t := by
  have hsame : Unstored s s := ⟨rfl, rfl, .refl s⟩
  refine .bind hs (.turn fun e _ => ?_)
  cases authorization with
  | none => exact ⟨hs, fun _ ho _ => ho, fun _ => .throw _ hsame⟩
  | some authorization =>
    cases hresponse : e.response with
    | error message =>
      simp only [Page.exchange, hresponse]
      exact ⟨hs, fun _ ho _ => ho, fun _ => .throw _ hsame⟩
    | ok response =>
      simp only [Page.exchange, hresponse]
      split
      · exact ⟨hs, fun _ ho _ => ho, fun _ => .throw _ hsame⟩
      · rename_i device hdevice
        refine ⟨hs, fun _ ho _ => ho, fun _ => .pure _ ⟨rfl, rfl, ?_, ?_⟩⟩
        · refine ⟨[.exchanged i device], rfl, fun e he => ?_⟩
          rw [List.mem_singleton.mp he]
          rfl
        · exact validateTrustedDevice_host hdevice

theorem beginPairing_still (e : Outside) (s : Page) : Still s (s.beginPairing e).2 := by
  unfold Page.beginPairing
  cases s.authorization with
  | none => exact ⟨rfl, rfl, rfl⟩
  | some authorization =>
    dsimp only
    split
    · exact ⟨rfl, rfl, rfl⟩
    · cases normalizeReceiverHost s.address with
      | error message => exact .refl s
      | ok host => exact ⟨rfl, rfl, rfl⟩

/-- Sections before the guarded one, which may fail too. -/
theorem still_does {x : Async α} {f : α → Async β} {Q : β → Page → Prop} (hst : Still s t)
    (ht : Covered t) (hx : x.run.Every Still)
    (hf : ∀ a u, Still s u → Covered u → Does u (f a) Q (Failed s)) :
    Does t (x >>= f) Q (Failed s) := by
  refine .bind ht ((Does.of_still hx).mono ?_ ?_)
  · intro a u _ hstill hu
    exact hf a u (hst.trans hstill) hu
  · intro message u _ hstill
    exact .of_still (hst.trans hstill) message

theorem completePairing_does (hs : Covered s) {E : String → Page → Prop} :
    Does s (completePairing i) (fun _ t => Secured i s t) E := by
  refine secured_does hs (still_does (.refl s) hs
    (Attempt.every_turn fun e s => beginPairing_still e s) ?_)
  intro begun t hst ht
  cases begun with
  | expired write =>
    refine still_does hst ht (settle_still write) fun _ u hsu _ => ?_
    exact .throw _ (.of_still hsu _)
  | invalid message => exact .throw _ (.of_still hst _)
  | ready host write =>
    refine still_does hst ht (settle_still write) fun _ u hsu hu => ?_
    refine still_does hsu hu getOrCreateSenderId_still fun senderId v hsv hv => ?_
    refine .bind hv ((withHostPermission_does (Q := Saved v) hv ?_).mono ?_ ?_)
    · intro lease w hw hlease
      refine .bind hw (.turn fun e _ => ⟨hw, fun _ ho _ => ho, fun _ => ?_⟩)
      refine .bind hw ((pairReceiver_does hw host _ senderId).mono ?_ fun _ _ _ h => h)
      rintro paired x - ⟨horigins, htrusted, hlog, hhost⟩ hx
      exact save_leased_does hlease rfl (origin_normalized hhost) (fun _ => rfl) hx horigins
        htrusted hlog
    · rintro trusted w - hsaved hw
      obtain ⟨more, hlog, hstored⟩ := hsaved.log
      rw [hsv.log] at hlog
      refine .bind hw (.turn fun e _ => ⟨hw, fun _ ho _ => ho, fun hrendered => ?_⟩)
      refine .bind hrendered ((Does.of_still clearPendingState_still).mono ?_ ?_)
      · intro _ x _ hstill hx
        exact settle_does hx (hstill.trusted.trans hsaved.trusted) (hstill.log.trans hlog) hstored
      · intro message x _ hstill
        exact Settled.failed (hstill.log.trans hlog) hstored
    · intro message w _ hrolled
      exact .behind hsv.origins (appends_of_still hsv) hrolled

theorem updateTrustedHost_does (hs : Covered s) {E : String → Page → Prop} :
    Does s (updateTrustedHost i) (fun _ t => Secured i s t) E := by
  have hread : ∀ record : DeviceRecord, ∀ e ∈ [Event.read i record], stored e = none := by
    intro record e he
    rw [List.mem_singleton.mp he]
    rfl
  refine secured_does hs (.bind hs ((getTrustedReceiver_does hs hread).mono ?_ ?_))
  · intro trusted t _ hfetched ht
    cases trusted with
    | none => exact .throw _ (.unchanged _ hfetched.origins hfetched.log)
    | some trusted =>
      refine .bind ht (.turn fun e _ => ⟨ht, fun _ ho _ => ho, fun _ => ?_⟩)
      refine .bind ht (.ofResult _ (fun host _ _ => ?_) fun message _ => ?_)
      · refine .bind ht ((withHostPermission_does (Q := Saved t) ht ?_).mono ?_ ?_)
        · intro lease u hu hlease
          exact save_leased_does hlease rfl rfl (fun _ => rfl) hu rfl rfl
            (.refl u)
        · rintro updated u - hsaved hu
          obtain ⟨before, hbefore, -⟩ := hfetched.log
          obtain ⟨more, hmore, e, he, hstored⟩ := hsaved.log
          refine .bind hu ((Does.of_still (renderTrusted_still _)).mono ?_ ?_)
          · intro _ v _ hstill hv
            refine settle_does hv (hstill.trusted.trans hsaved.trusted)
              (hstill.log.trans ?_) ⟨e, List.mem_append_right before he, hstored⟩
            rw [hmore, hbefore, List.append_assoc]
          · intro message v _ hstill
            refine Settled.failed (hstill.log.trans ?_) ⟨e, List.mem_append_right before he, hstored⟩
            rw [hmore, hbefore, List.append_assoc]
        · intro message u _ hrolled
          exact .behind hfetched.origins hfetched.log hrolled
      · exact .unchanged _ hfetched.origins hfetched.log
  · rintro message t - ⟨horigins, hlog⟩
    exact .unchanged _ horigins hlog

/-- The operations that guard a step with a permission. -/
def guarded : Operation → Bool
  | .completePairing | .updateTrustedHost => true
  | _ => false

/-- The operations behind which unused permissions are taken back. -/
def cleans : Operation → Bool
  | .loadPairingState | .completePairing | .updateTrustedHost | .forgetPairing => true
  | _ => false

/-- What an operation leaves, by what it returns. -/
structure Concludes (i : Nat) (operation : Operation) (s : Page) (r : Except String Unit) (t : Page) :
    Prop where
  secured : guarded operation = true → Secured i s t
  leaves : cleans operation = true → r = .ok () → Leaves i s t

theorem Secured.leaves (h : Secured i s t) : Leaves i s t := by
  obtain ⟨more, hlog, -, htidy⟩ := h
  exact ⟨more, hlog, htidy⟩

theorem operate_does (hs : Covered s) (operation : Operation) :
    Does s (operate i operation) (fun _ t => Concludes i operation s (.ok ()) t)
      fun message t => Concludes i operation s (.error message) t := by
  have hsecured : ∀ t, Secured i s t → Concludes i operation s (.ok ()) t :=
    fun t h => ⟨fun _ => h, fun _ _ => h.leaves⟩
  cases operation with
  | loadPairingState =>
    refine (loadPairingState_does hs).mono (fun _ t _ h => ⟨?_, fun _ _ => h⟩) fun _ t _ _ => ⟨?_, ?_⟩
    all_goals rintro ⟨⟩
    rintro ⟨⟩
  | completePairing => exact (completePairing_does hs).mono (fun _ t _ => hsecured t) fun _ _ _ h => h
  | updateTrustedHost =>
    exact (updateTrustedHost_does hs).mono (fun _ t _ => hsecured t) fun _ _ _ h => h
  | forgetPairing =>
    refine (forgetPairing_does hs).mono (fun _ t _ h => ⟨?_, fun _ _ => h⟩) fun _ t _ _ => ⟨?_, ?_⟩
    all_goals rintro ⟨⟩
    rintro ⟨⟩
  | refreshAuthorization =>
    refine (Does.of_still refreshAuthorization_still).mono (fun _ _ _ _ => ⟨?_, ?_⟩)
      fun _ _ _ _ => ⟨?_, ?_⟩
    all_goals rintro ⟨⟩
  | input text =>
    refine (Does.of_still (input_still text)).mono (fun _ _ _ _ => ⟨?_, ?_⟩)
      fun _ _ _ _ => ⟨?_, ?_⟩
    all_goals rintro ⟨⟩
  | typePairedHost text =>
    refine .turn fun e _ => ⟨hs, fun _ ho _ => ho, ?_, ?_⟩
    all_goals rintro ⟨⟩

end Operations

section Sequence

/-- An operation has run on its own, and what is granted was changed by nobody else. -/
structure Ran (i : Nat) (operation : Operation) (s : Page) (h : List (Step Page Outside))
    (r : Except String Unit) (t : Page) : Prop where
  run : Runs Eq (operate i operation).run s h (.ret r) t
  unchanged : ∀ step ∈ h, step.learned.origins = step.before.origins

/-- The pages that operations leave which run one at a time. -/
inductive Sequence (initial : Page) : Page → Prop where
  | start : Sequence initial initial
  | operation {s t : Page} {i : Nat} {operation : Operation} {h : List (Step Page Outside)}
      {r : Except String Unit} (before : Sequence initial s) (ran : Ran i operation s h r t) :
      Sequence initial t

variable {initial s t : Page} {i : Nat} {operation : Operation} {h : List (Step Page Outside)}
  {r : Except String Unit}

theorem Ran.concludes (hran : Ran i operation s h r t) (hs : Covered s) :
    Covered t ∧ Concludes i operation s r t ∧ ∀ step ∈ h, Spares step.before step.after := by
  have hsame : ∀ s t : Page, alone.invariant s → s = t → alone.rely () s t ∧ alone.invariant t := by
    rintro s _ hs rfl
    exact ⟨rfl, hs⟩
  obtain ⟨ht, hends, hspares⟩ :=
    Program.Meets.runs hsame hs (operate_does hs operation) hran.run hran.unchanged
  have hr := hends t rfl ht
  refine ⟨ht, ?_, hspares⟩
  cases r with
  | ok _ => exact hr
  | error message => exact hr

theorem Sequence.covered (hinitial : Covered initial) (hs : Sequence initial s) : Covered s := by
  induction hs with
  | start => exact hinitial
  | operation _ ran ih => exact (ran.concludes ih).1

/-- Whatever fails, what is stored keeps its permission, a failed step gives back what it was
granted, and no permission is left or lost that should not be. -/
theorem permissions_consistent (hinitial : Covered initial) (hbefore : Sequence initial s)
    (hran : Ran i operation s h r t) :
    Covered t ∧
    (guarded operation = true → ∃ more, t.log = s.log ++ more ∧
      ((∀ e ∈ more, stored e = none) → (∀ origin ∈ s.origins, origin ∈ t.origins) ∧
        ((∀ origin ∈ t.origins, origin ∈ s.origins) ∨
          .failed i "操作失败，且临时地址权限未能撤销" ∈ more))) ∧
    (cleans operation = true → r = .ok () → ∃ more, t.log = s.log ++ more ∧
      ((∀ message, .failed i message ∉ more) → Tidy t)) ∧
    ∀ step ∈ h, ∀ origin ∈ step.before.origins, isManualPrivateIpv4Origin origin = false →
      origin ∈ step.after.origins := by
  obtain ⟨ht, hconcludes, hspares⟩ := hran.concludes (hbefore.covered hinitial)
  refine ⟨ht, fun hguarded => ?_, hconcludes.leaves, hspares⟩
  obtain ⟨more, hlog, hrolled, -⟩ := hconcludes.secured hguarded
  exact ⟨more, hlog, hrolled⟩

def waiting : Page where
  trusted := none
  senderId := some oldDevice.senderId
  pending := none
  authorization := some ⟨List.replicate 32 0x30, List.replicate 64 0x30, 60000, ascii "000000"⟩
  address := "192.168.1.5".toList
  pairedHost := defaultReceiverHost
  writesQueued := 0
  writesSettled := 0
  log := []
  origins := ["http://10.0.0.2/*".toList]

/-- The receiver answers, and every call is served. -/
def served (origins : List Text) : Outside where
  origins := origins
  response := .ok ⟨some movedDevice.deviceId, some movedDevice.credential⟩

/-- A pairing with another address than the one that a permission was left for. -/
def pairing : List Outside :=
  List.replicate 10 (served ["http://10.0.0.2/*".toList]) ++
    List.replicate 13 (served ["http://192.168.1.5/*".toList, "http://10.0.0.2/*".toList]) ++
      [served ["http://192.168.1.5/*".toList]]

theorem paired_host_granted : ∃ h r t, Ran 0 .completePairing waiting h r t ∧
    t.trusted = some movedDevice.toRecord ∧ "http://192.168.1.5/*".toList ∈ t.origins := by
  have hplay := Program.play_runs (R := Eq) (operate 0 .completePairing).run waiting pairing
  have hends : ((operate 0 .completePairing).run.play waiting pairing).2.1.result = some (.ok ()) := by
    decide
  have hstored : ((operate 0 .completePairing).run.play waiting pairing).2.2.trusted =
      some movedDevice.toRecord := by
    decide
  have hsame : ∀ step ∈ ((operate 0 .completePairing).run.play waiting pairing).1,
      step.learned.origins = step.before.origins := by
    decide
  rw [Program.eq_ret_of_result hends] at hplay
  have hran : Ran 0 .completePairing waiting _ _ _ := ⟨hplay, hsame⟩
  have hnone : Covered waiting := by
    rintro _ _ _ ⟨⟩
  obtain ⟨hcovered, -⟩ := permissions_consistent hnone .start hran
  refine ⟨_, _, _, hran, hstored, ?_⟩
  exact hcovered _ _ _ hstored rfl (by decide)

end Sequence

end HarmonyScreen.Proofs.HostPermissions
