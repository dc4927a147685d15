import HarmonyScreen.Proofs.MdnsCalls

namespace HarmonyScreen.Proofs.MdnsRuns
open Lib Program Receiver Mdns MdnsResponder MdnsEffects MdnsOwner MdnsSections MdnsWorker MdnsRun
  MdnsCalls

variable {n : Nat} {S : Option (Segment n)} {G : Segment n} {i j : Fin n} {l : Lan n}

/-- What a settled responder looks like. -/
theorem settled_iff : Lan.settled l = true ↔ ∀ i, ((l.responders i).isOpen = true →
      (l.responders i).inbox = [] ∧ (l.responders i).handling = none) ∧
    ((l.responders i).workerLives = true → (l.responders i).waiting.any (l.clock < ·) = true) ∧
    ((l.responders i).calls = [] ∨ (l.responders i).workerLives = true) := by
  simp [Lan.settled]

/-- Nothing lies before an open responder when all is settled. -/
theorem not_faces (h : Lan.settled l = true) (ho : (l.responders i).isOpen = true) :
    ¬ Faces G j (l.responders i) := by
  rintro ⟨p, hmem, -⟩
  obtain ⟨hin, hh⟩ := (settled_iff.mp h i).1 ho
  rw [unhandled, hin, hh] at hmem
  cases hmem

/-- A responder that is stopped while the clock advances is waited for. -/
theorem stopping_due (h : Owner G l) (hl : Sound (l.responders i)) (hsettled : Lan.settled l = true)
    (hstop : Stopping (l.responders i)) :
    l.clock < (l.responders i).closedAt + kPublishedReceiveMilliseconds := by
  obtain ⟨-, hwaits, hcalls⟩ := settled_iff.mp hsettled i
  have hlives := hcalls.resolve_left (hl.gone hstop.2 hstop.1).2.2
  obtain ⟨d, hd, hlt⟩ := (Option.any_eq_true _ _).mp (hwaits hlives)
  have hle := (h.timely i).waits d hd hlives
  rw [hl.opens, hstop.1] at hle
  simp only [Bool.false_eq_true, if_false] at hle
  exact Nat.lt_of_lt_of_le (by simpa using hlt) hle

theorem Owner.tick (h : Owner G l) (hl : ∀ i, Sound (l.responders i))
    (hsettled : Lan.settled l = true) : Owner G { l with clock := l.clock + 1, probers := [] } where
  timely i := by
    have hi := h.timely i
    refine ⟨hi.selected, fun hp => Nat.le_succ_of_le (hi.probed hp),
      fun hs => ⟨(hi.published hs).1, Nat.le_succ_of_le (hi.published hs).2⟩,
      fun ho => ⟨Nat.le_succ_of_le (hi.closing ho).1, fun hs => ?_⟩, fun d hd hlives => ?_,
      fun ho p hp => ?_⟩
    · exact stopping_due h (hl i) hsettled ⟨(hl i).opens ▸ ho, hs⟩
    · have := hi.waits d hd hlives
      split at this
      · rename_i ho
        rw [if_pos ho]
        show d ≤ l.clock + 1 + kPublishedReceiveMilliseconds
        omega
      · rename_i ho
        rw [if_neg ho]
        exact this
    · obtain ⟨hin, hh⟩ := (settled_iff.mp hsettled i).1 ho
      have hp' : p ∈ unhandled (l.responders i) := hp
      rw [unhandled, hin, hh] at hp'
      cases hp'
  rivals i j hij hr hs := by
    rcases h.rivals i j hij hr hs with ⟨ho, ho', hf, -⟩ | h | h
    · rcases hf with hf | hf
      · exact absurd hf (not_faces hsettled ho')
      · exact absurd hf (not_faces hsettled ho)
    · exact .inr (.inl h)
    · exact .inr (.inr h)
  losers := h.losers

theorem meets_tick (l : Lan n) :
    (Lan.tick : Session n Unit).Meets (discipline S) .clock (fun _ _ => True) l := by
  intro m _ hi hready e _
  refine ⟨⟨hi.sound, fun G hG => Owner.tick (hi.owner G hG) hi.sound hready⟩, fun v hv => ?_,
    fun _ _ _ => trivial⟩
  cases v with
  | clock => exact absurd rfl hv
  | worker i =>
    refine ⟨fun hl => ⟨hl, rfl, rfl, rfl, rfl, fun h => ⟨h, rfl⟩, Nat.le_succ _, fun hw => ?_⟩,
      fun hl hl' => still hl' hl⟩
    -- a living worker waits for a time that has not come
    have := (settled_iff.mp hready i).2.1 hl
    rw [hw] at this
    cases this
  | caller i k => exact ⟨Iff.rfl, fun _ => .refl _ _⟩

/-- What holds of a thread that has nothing to do. -/
def rest : LanThread n → Lan n → Prop
  | .clock, _ => True
  | .worker i, l => (l.responders i).workerLives = true → Launched i l
  | .caller i k, l => Outer i k l

/-- A `Start` has the address that the interface gives to the responder. -/
def Addressed (S : Option (Segment n)) : LanThread n → LanJob → Prop
  | .caller i _, .start addressText interfaceIndex =>
    ∀ selected ∈ startArguments addressText interfaceIndex,
      ∀ G ∈ S, selected = ⟨G.address i, G.index⟩
  | _, _ => True

/-- What may be started on the interface. -/
def Placed (S : Option (Segment n)) (l : Lan n) (u : LanThread n) (job : LanJob) : Prop :=
  Lan.launched l u job ∧ Addressed S u job

instance (l : Lan n) (u : LanThread n) (job : LanJob) : Decidable (Lan.launched l u job) :=
  match u with
  | .worker i => decidable_of_iff ((l.responders i).workerLives = true)
      ⟨fun h _ hi => LanThread.worker.inj hi ▸ h, fun h => h i rfl⟩
  | .clock => .isTrue fun _ h => (by cases h)
  | .caller _ _ => .isTrue fun _ h => (by cases h)

instance (u : LanThread n) (job : LanJob) : Decidable (Addressed S u job) :=
  match u, job with
  | .caller i _, .start addressText interfaceIndex =>
    inferInstanceAs (Decidable (∀ selected ∈ startArguments addressText interfaceIndex,
      ∀ G ∈ S, selected = ⟨G.address i, G.index⟩))
  | .caller _ _, .stop | .caller _ _, .run _ | .caller _ _, .tick => .isTrue trivial
  | .clock, _ | .worker _, _ => .isTrue trivial

instance (l : Lan n) (u : LanThread n) (job : LanJob) : Decidable (Placed S l u job) :=
  inferInstanceAs (Decidable (_ ∧ _))

instance (l : Lan n) (e : Outside) : Decidable (Offered S l e) :=
  match e with
  | ⟨_, now, .foreign datagram, _, _, _⟩ =>
    decidable_of_iff (∀ G ∈ S, now = l.clock ∧
        (classifyMessage datagram.bytes = .query ∨ classifyMessage datagram.bytes = .invalid))
      ⟨fun h G hG => ⟨(h G hG).1, fun _ hd => Received.foreign.inj hd ▸ (h G hG).2⟩,
        fun h G hG => ⟨(h G hG).1, (h G hG).2 _ rfl⟩⟩
  | ⟨_, now, .timeout, _, _, _⟩ | ⟨_, now, .error, _, _, _⟩ | ⟨_, now, .next, _, _, _⟩ =>
    decidable_of_iff (∀ G ∈ S, now = l.clock)
      ⟨fun h G hG => ⟨h G hG, fun _ hd => (by cases hd)⟩, fun h G hG => (h G hG).1⟩

theorem rest_stable (u : LanThread n) : (discipline S).Stable u (rest u) := by
  intro l m h hr hi
  cases u with
  | clock => trivial
  | worker i =>
    intro hm
    by_cases hl : (l.responders i).workerLives = true
    · exact (h hl).later (hr.1 hl)
    · exact hr.2 (by simpa using hl) hm
  | caller i k => exact Outer.stable S i k l m h hr hi

theorem meets_worker (hi : Invariant S l) (h : Launched i l) (turns : Nat) :
    (worker i turns).Meets (discipline S) (.worker i) (fun _ => rest (.worker i)) l := by
  have hready : Idle S i (candidate none) l :=
    ⟨h.1, fun hd => ⟨h.2 hd, fun _ hb => (by cases hb)⟩⟩
  have hend : (discipline S).Outline (.worker i) (Lives i) (Program.critical fun _ (l : Lan n) =>
      ((), l.update i fun r => { r with workerLives := false })) (fun _ => rest (.worker i)) := by
    refine outline_section (Lives.stable S i) (fun _ => rest_stable (.worker i))
      fun e l hi _ _ =>
      ⟨WorkerStep.update (f := fun r => { r with workerLives := false }) l effect_ended,
        fun G hG => ?_, fun hl => ?_⟩
    · exact Owner.silent (f := fun r => { r with workerLives := false }) (hi.owner G hG) fun _ =>
        ⟨rfl, rfl, rfl, rfl, rfl, rfl, rfl, fun h => (by cases h), rfl, rfl⟩
    · rw [Lan.update_same] at hl
      cases hl
  exact ((outline_run S i turns).bind fun _ => hend) l hi hready

theorem invariant_initial : Invariant S ({} : Lan n) := ⟨fun _ => .initial, fun _ _ => .initial⟩

theorem rest_initial (u : LanThread n) : rest u ({} : Lan n) := by
  cases u with
  | clock => trivial
  | worker i => exact fun h => (by cases h)
  | caller i k => exact fun h => (by cases h)

theorem meets_job (u : LanThread n) (job : LanJob) (l : Lan n) (hi : Invariant S l) (h : rest u l)
    (hplaced : Placed S l u job) :
    (Lan.spawn u job).Meets (discipline S) u (fun _ => rest u) l := by
  have hnothing : (Program.ret () : Session n Unit).Meets (discipline S) u (fun _ => rest u) l :=
    fun m hr hi => rest_stable u l m h hr hi
  cases u with
  | clock =>
    cases job with
    | tick => exact meets_tick l
    | _ => exact hnothing
  | worker i =>
    cases job with
    | run turns => exact meets_worker hi (h (hplaced.1 i rfl)) turns
    | _ => exact hnothing
  | caller i k =>
    cases job with
    | start addressText interfaceIndex =>
      exact outline_start S i k (fun selected hsel G hG => hplaced.2 selected hsel G hG) l hi h
    | stop => exact outline_stop S i k l hi h
    | _ => exact hnothing

/-- The run lemma of the responders. -/
theorem reaches_invariant {c : Config (LanThread n) (Lan n) Outside}
    (hc : Config.ReachesOffered Lan.spawn (Placed S) (fun _ => Offered S) (Config.idle {}) c) :
    Invariant S c.state :=
  (Config.ReachesOffered.kept (D := discipline S) hc invariant_initial (fun u => rest_stable u)
    rest_initial fun u job l hi h hp => meets_job u job l hi h hp).1

end HarmonyScreen.Proofs.MdnsRuns
