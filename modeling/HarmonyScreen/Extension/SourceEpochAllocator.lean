import HarmonyScreen.Extension.DirectProtocol
import HarmonyScreen.Lib.Serial

namespace HarmonyScreen.Extension
open Lib

namespace DirectProtocol

/-- `undefined`, where the storage has no value, is not an integer either. -/
def nextSourceEpoch : Option Number → Number
  | some (.integer current) =>
    if current < 0 ∨ current ≥ 0xffffffff then .integer 1 else .integer (current + 1)
  | _ => .integer 1

end DirectProtocol

namespace SourceEpochAllocator
open DirectProtocol

/-- What the storage makes of a request. -/
inductive Answer where
  | done
  | rejected (reason : String)
  deriving DecidableEq, Repr

/-- The value under `SOURCE_EPOCH_STORAGE_KEY`, if there is one. -/
abbrev Stored := Option Number

/-- `await storage.get`: the request is served at one moment and its answer comes later. -/
def storageGet : Program Stored Answer (Except String Stored) := do
  let result ← Program.critical fun e stored =>
    match e with
    | .done => (.ok stored, stored)
    | .rejected reason => (.error reason, stored)
  Program.await fun _ => true
  return result

/-- `await storage.set`; a rejected request stores nothing. -/
def storageSet (sourceEpoch : Number) : Program Stored Answer (Except String Unit) := do
  let result ← Program.critical fun e stored =>
    match e with
    | .done => (.ok (), some sourceEpoch)
    | .rejected reason => (.error reason, stored)
  Program.await fun _ => true
  return result

def allocateSourceEpoch : Program Stored Answer (Except String Number) := do
  match ← storageGet with
  | .error reason => return .error reason
  | .ok current =>
    let sourceEpoch := nextSourceEpoch current
    match ← storageSet sourceEpoch with
    | .error reason => return .error reason
    | .ok () => return .ok sourceEpoch

/-- The promises of the chain, each by how it is made. -/
inductive Promise where
  /-- `Promise.resolve()` -/
  | resolved
  /-- `allocationQueue.then(() => allocateSourceEpoch(storage))`, of the call with this index. -/
  | allocation (index : Nat)
  /-- `promise.catch(() => {})` -/
  | caught (promise : Promise)
  deriving DecidableEq, Repr

/-- A call of `allocate`: the promise that its `then` stands on, and its allocation. -/
structure Allocation where
  behind : Promise
  program : Program Stored Answer (Except String Number)

/-- The storage, the variable of the closure and the calls that were made. -/
structure Allocator where
  stored : Stored
  allocationQueue : Promise
  allocations : List Allocation

def createSerializedSourceEpochAllocator (storage : Stored) : Allocator where
  stored := storage
  allocationQueue := .resolved
  allocations := []

namespace Allocator

/-- What a call of `allocate` does before it returns its promise. -/
def allocate (q : Allocator) : Allocator where
  stored := q.stored
  allocationQueue := .caught (.allocation q.allocations.length)
  allocations := q.allocations ++ [⟨q.allocationQueue, allocateSourceEpoch⟩]

/-- How a promise is settled, if it is. -/
def settlement (q : Allocator) : Promise → Option (Except String Unit)
  | .resolved => some (.ok ())
  | .allocation index =>
    ((q.allocations[index]?).bind fun a => a.program.result).map fun result => result.map fun _ => ()
  | .caught promise => (q.settlement promise).map fun _ => .ok ()

def settled (q : Allocator) (index : Nat) : Bool := (q.settlement (.allocation index)).isSome

/-- A `then` waits for its promise. A rejection is handed on; otherwise the allocation goes on by a
section. -/
def turn (q : Allocator) : Turn Answer → Allocator
  | .call => q.allocate
  | .take index e =>
    match q.allocations[index]? with
    | none => q
    | some a =>
      match q.settlement a.behind with
      | none => q
      | some (.error reason) =>
        { q with allocations := q.allocations.set index { a with program := .ret (.error reason) } }
      | some (.ok ()) =>
        match a.program with
        | .ret _ => q
        | .atomic ready act next =>
          if ready q.stored then
            { q with
              stored := act e q.stored
              allocations := q.allocations.set index { a with program := next e q.stored } }
          else q

def run (initial : Stored) (turns : List (Turn Answer)) : Allocator :=
  turns.foldl turn (createSerializedSourceEpochAllocator initial)

/-- The successful results in the order of the calls. -/
def fulfilled (q : Allocator) : List Number :=
  (q.allocations.filterMap fun a => a.program.result).filterMap Except.toOption

end Allocator

end SourceEpochAllocator

end HarmonyScreen.Extension
