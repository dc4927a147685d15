import HarmonyScreen.Proofs.Goodbye

namespace HarmonyScreen.Proofs.SingleOwner
open Lib Receiver Mdns MdnsResponder MdnsEffects MdnsOwner MdnsWorker MdnsRuns Goodbye

variable {n : Nat} {G : Segment n} {i j : Fin n} {l : Lan n}
  {c : Config (LanThread n) (Lan n) Outside}

/-- The runs of the responders on one interface: each starts with its own address, every
packet is delivered and handled before the clock advances, and what else they receive
are queries or nothing that is well formed. -/
def OnSegment (G : Segment n) (c : Config (LanThread n) (Lan n) Outside) : Prop :=
  Config.ReachesOffered Lan.spawn (Placed (some G)) (fun _ => Offered (some G)) (Config.idle {}) c

/-- The responder is `Published` and has a rival that was closed: too late to be one. -/
theorem not_published_behind (h : Owner G l) (hsound : ∀ i, Sound (l.responders i))
    (hsettled : Lan.settled l = true) (hi : (l.responders i).state = .published)
    (hj : (l.responders j).state = .published) (hclosed : (l.responders i).isOpen = false) :
    ¬ (l.responders i).closedAt ≤ (l.responders j).probedAt := by
  intro hle
  have hstopping : Stopping (l.responders i) := ⟨(hsound i).opens ▸ hclosed, hi⟩
  have hdue := stopping_due h (hsound i) hsettled hstopping
  have hprobed := ((h.timely j).published hj).2
  -- a stop waits 100 ms at most, a publication takes 750 ms
  simp only [kPublishedReceiveMilliseconds, kProbeCount, kProbeIntervalMilliseconds] at hdue hprobed
  omega

theorem at_most_one_published (h : Owner G l) (hsound : ∀ i, Sound (l.responders i))
    (hsettled : Lan.settled l = true) (hi : (l.responders i).state = .published)
    (hj : (l.responders j).state = .published) : i = j := by
  by_contra hij
  have hcontend : ∀ {k}, (l.responders k).state = .published → Contender (l.responders k) :=
    fun {k} hk => ⟨((h.timely k).published hk).1, .inr hk⟩
  rcases h.rivals i j hij (hcontend hi) (hcontend hj) with ⟨ho, ho', hf, -⟩ | ⟨ho, hle⟩ | ⟨ho, hle⟩
  · rcases hf with hf | hf
    · exact not_faces hsettled ho' hf
    · exact not_faces hsettled ho hf
  · exact not_published_behind h hsound hsettled hi hj ho hle
  · exact not_published_behind h hsound hsettled hj hi ho hle

/-- Whenever the clock may advance at most one responder is `Published`, and who lost a
tie-break never had the greatest address of those that probed at that time. -/
theorem single_owner (hc : OnSegment G c) :
    (Lan.settled c.state = true → ∀ i j, (c.state.responders i).state = .published →
      (c.state.responders j).state = .published → i = j) ∧
    ∀ x ∈ c.state.losers, ∃ k ∈ x.2, (G.address x.1).bytes < (G.address k).bytes := by
  obtain ⟨hsound, howner⟩ := reaches_invariant hc
  have h := howner G rfl
  exact ⟨fun hsettled i j => at_most_one_published h hsound hsettled, h.losers⟩

/-- Two responders, the second with the greater address. -/
def pair : Segment 2 where
  address i := if i = 0 then ⟨192, 168, 1, 10⟩ else ⟨192, 168, 1, 20⟩
  index := 3
  trusted := by decide
  distinct := by decide

/-- Both start; the second probes at once and the first, still in its delay, gives way. -/
def giveWay : Schedule 2 :=
  startCall 0 (ascii "192.168.1.10") ++ startCall 1 (ascii "192.168.1.20") ++
    .start (.worker 1) (.run 1) :: sections (.worker 1) (quiet 6) ++
    .start (.worker 0) (.run 1) :: sections (.worker 0)
      ([{ randomDelay := 250 }] ++ quiet 4 ++ [{ received := .next }] ++ quiet 2)

theorem first_gives_way : ∃ c, OnSegment pair c ∧ c.state.losers = [(0, [1])] ∧
    (pair.address 0).bytes < (pair.address 1).bytes := by
  have hrun : (Config.follow Lan.spawn (Placed (some pair)) (fun _ => Offered (some pair)) giveWay
      (Config.idle {})).any (fun c => c.state.losers = [(0, [1])]) = true := by
    decide
  obtain ⟨c, hc, hlost⟩ := (Option.any_eq_true _ _).mp hrun
  have hreach : OnSegment pair c := Config.ReachesOffered.follow .refl _ hc
  have hlosers : c.state.losers = [(0, [1])] := of_decide_eq_true hlost
  obtain ⟨k, hk, hlt⟩ := (single_owner hreach).2 (0, [1]) (by simp [hlosers])
  rw [List.mem_singleton.mp hk] at hlt
  exact ⟨c, hreach, hlosers, hlt⟩

end HarmonyScreen.Proofs.SingleOwner
