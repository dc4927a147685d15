import HarmonyScreen.Lib.Discipline

namespace HarmonyScreen.Host
open Lib

/-- How far a thread is with an `Open` or a `Revoke`; it is `changed` from the increment of
the epoch on. -/
inductive Change where
  | opening
  | revoking
  | changed
  deriving DecidableEq, Repr

inductive GateEvent where
  | opened (token : UInt64)
  | revoked
  | acted (token : UInt64)
  deriving DecidableEq, Repr

structure DataPlaneGate (ι : Type) where
  sendMutex : Option ι := none
  epoch : UInt64 := 0
  allowed : Bool := false
  /-- The history: which thread is in an `Open` or a `Revoke`, the increments of the epoch and
  the actions that were run. -/
  changes : ι → Option Change := fun _ => none
  log : List GateEvent := []

namespace DataPlaneGate

variable {ι : Type} [DecidableEq ι]

abbrev GateProgram (ι : Type) := Program (DataPlaneGate ι) Unit

def modify (f : DataPlaneGate ι → DataPlaneGate ι) : GateProgram ι Unit :=
  .critical fun _ s => ((), f s)

def load (read : DataPlaneGate ι → α) : GateProgram ι α := .critical fun _ s => (read s, s)

def lockSendMutex (i : ι) : GateProgram ι Unit :=
  .atomic (fun s => s.sendMutex.isNone) (fun _ s => { s with sendMutex := some i })
    (fun _ _ => .ret ())

def unlockSendMutex : GateProgram ι Unit := modify fun s => { s with sendMutex := none }

/-- The first store of `Open` and `Revoke`. -/
def storeRefused (i : ι) (change : Change) : GateProgram ι Unit :=
  modify fun s =>
    { s with allowed := false, changes := Function.update s.changes i (some change) }

/-- `epoch_.fetch_add(1)`, with what it counts for. -/
def incrementEpoch (i : ι) (event : UInt64 → GateEvent) : GateProgram ι UInt64 :=
  .critical fun _ s =>
    (s.epoch, { s with
      epoch := s.epoch + 1
      changes := Function.update s.changes i (some .changed)
      log := s.log ++ [event (s.epoch + 1)] })

/-- The end of the lock of `Open` and `Revoke`. -/
def finishChange (i : ι) : GateProgram ι Unit :=
  modify fun s =>
    { s with sendMutex := none, changes := Function.update s.changes i none }

/-- `Open`. -/
def openGate (i : ι) : GateProgram ι UInt64 := do
  storeRefused i .opening
  lockSendMutex i
  let previous ← incrementEpoch i .opened
  modify fun s => { s with allowed := true }
  finishChange i
  return previous + 1

def revoke (i : ι) : GateProgram ι Unit := do
  storeRefused i .revoking
  lockSendMutex i
  let _ ← incrementEpoch i fun _ => .revoked
  finishChange i

def capture : GateProgram ι (Option UInt64) := do
  if !(← load allowed) then return none
  let token ← load epoch
  if !(← load allowed) then return none
  if (← load epoch) = token then return some token else return none

def canSend (token : UInt64) : GateProgram ι Bool := do
  if !(← load allowed) then return false
  return (← load epoch) == token

/-- The action is a section of its own that leaves its mark in the history. -/
def runIfAllowed (i : ι) (token : UInt64) : GateProgram ι Bool := do
  lockSendMutex i
  if !(← load allowed) then
    unlockSendMutex
    return false
  if (← load epoch) ≠ token then
    unlockSendMutex
    return false
  modify fun s => { s with log := s.log ++ [.acted token] }
  unlockSendMutex
  return true

inductive Job where
  | openGate
  | revoke
  | capture
  | canSend (token : UInt64)
  | runIfAllowed (token : UInt64)
  deriving DecidableEq, Repr

def spawn (i : ι) : Job → GateProgram ι Unit
  | .openGate => do let _ ← openGate i
  | .revoke => revoke i
  | .capture => do let _ ← capture
  | .canSend token => do let _ ← canSend token
  | .runIfAllowed token => do let _ ← runIfAllowed i token

/-- The token of the `Open` in force: the one that incremented the epoch last, unless a
`Revoke` did. -/
def inForce (log : List GateEvent) : Option UInt64 :=
  log.foldl (fun
    | _, .opened token => some token
    | _, .revoked => none
    | force, .acted _ => force) none

end DataPlaneGate

end HarmonyScreen.Host
