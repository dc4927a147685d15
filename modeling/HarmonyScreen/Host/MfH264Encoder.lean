import HarmonyScreen.Receiver.Bytes

namespace HarmonyScreen.Host
open Receiver

def hasAnnexBStartCode (bytes : Bytes) : Bool :=
  4 ≤ bytes.length && bytes.getD 0 0 == 0 && bytes.getD 1 0 == 0 &&
    (bytes.getD 2 0 == 1 || (bytes.getD 2 0 == 0 && bytes.getD 3 0 == 1))

def startCode : Bytes := [0, 0, 0, 1]

/-- The loop of `NormalizeAccessUnit` from an offset on, with what it has put out. -/
def normalizeLoop (data : Bytes) (offset : Nat) (annexB : Bytes) : Bytes :=
  if offset + 4 ≤ data.length then
    let nalSize := readBig ((data.drop offset).take 4)
    if nalSize = 0 ∨ offset + 4 + nalSize > data.length then data
    else
      normalizeLoop data (offset + 4 + nalSize)
        (annexB ++ startCode ++ (data.drop (offset + 4)).take nalSize)
  else if offset = data.length then annexB else data
termination_by data.length - offset

def normalizeAccessUnit (data : Bytes) : Bytes :=
  if hasAnnexBStartCode data then data else normalizeLoop data 0 []

end HarmonyScreen.Host
