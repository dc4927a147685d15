import HarmonyScreen.Proofs.MdnsRuns

namespace HarmonyScreen.Proofs.Goodbye
open Lib Receiver Mdns MdnsEffects MdnsWorker MdnsRuns

variable {n : Nat} {c : Config (LanThread n) (Lan n) Outside}

/-- Whatever is received and whatever fails, every section keeps the invariant. -/
theorem reachable_invariant (hc : Lan.Reachable c) : Invariant none c.state := by
  refine reaches_invariant (S := none) (hc.offered.weaken (fun l u job hl => ⟨hl, ?_⟩) ?_)
  · unfold Addressed
    split
    · exact fun _ _ G hG => by cases hG
    · trivial
  · exact fun _ _ _ _ G hG => by cases hG

/-- One goodbye for the address of the last `Start` when the name was withdrawn,
with nothing behind it, and none otherwise. -/
theorem goodbye_exactly_once (hc : Lan.Reachable c) (i : Fin n) :
    Accounted (c.state.responders i) :=
  ((reachable_invariant hc).sound i).accounted

abbrev Schedule (n : Nat) := List (Move (LanThread n) Outside LanJob)

/-- The thread takes as many sections as there are answers from outside. -/
def sections (u : LanThread n) (learned : List Outside) : Schedule n := learned.map (.step u)

def quiet (count : Nat) : List Outside := List.replicate count {}

/-- A call of `Start` that succeeds when no worker lives. -/
def startCall (i : Fin n) (addressText : Bytes) : Schedule n :=
  .start (.caller i 0) (.start addressText 3) :: sections (.caller i 0) (quiet 5)

/-- A probe and the interval behind it, in which nothing comes. -/
def quietProbe : List Outside := quiet 4 ++ [{ now := 250 }]

/-- The worker up to the publication. -/
def publishes (i : Fin n) : Schedule n :=
  .start (.worker i) (.run 5) ::
    sections (.worker i) (quiet 4 ++ quietProbe ++ quietProbe ++ quietProbe ++ quiet 1)

/-- A name that is published and withdrawn, up to the goodbye. -/
def publishedAndStopped : Schedule 1 :=
  startCall 0 (ascii "192.168.1.10") ++ publishes 0 ++
    .start (.caller 0 0) .stop :: sections (.caller 0 0) (quiet 2)

theorem stopped_says_goodbye : ∃ c : Config (LanThread 1) (Lan 1) Outside, Lan.Reachable c ∧
    (c.state.responders 0).departure = some .stopped ∧ Accounted (c.state.responders 0) := by
  have hrun : (Config.follow Lan.spawn Lan.launched (fun _ _ _ => True) publishedAndStopped
      (Config.idle {})).any (fun c => (c.state.responders 0).departure = some .stopped) = true := by
    decide
  obtain ⟨c, hc, hstopped⟩ := (Option.any_eq_true _ _).mp hrun
  have hreach : Lan.Reachable c := (Config.ReachesOffered.follow .refl _ hc).reaches
  exact ⟨c, hreach, of_decide_eq_true hstopped, goodbye_exactly_once hreach 0⟩

end HarmonyScreen.Proofs.Goodbye
