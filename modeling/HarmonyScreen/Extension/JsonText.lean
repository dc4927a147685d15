import HarmonyScreen.Extension.DirectClient

namespace HarmonyScreen.Extension
open Receiver

namespace Value

/-- What `JSON.stringify` writes for one character of a text; a byte from 0x80 on belongs to a
character that stays as it is. -/
def escapeCharacter (b : UInt8) : Bytes :=
  if b = 0x22 then [0x5c, 0x22]
  else if b = 0x5c then [0x5c, 0x5c]
  else if b = 0x08 then [0x5c, 0x62]
  else if b = 0x09 then [0x5c, 0x74]
  else if b = 0x0a then [0x5c, 0x6e]
  else if b = 0x0c then [0x5c, 0x66]
  else if b = 0x0d then [0x5c, 0x72]
  else if b < 0x20 then ascii "\\u00" ++ Protocol.lowerHex [b]
  else [b]

def quoteText (value : Bytes) : Bytes := 0x22 :: value.flatMap escapeCharacter ++ [0x22]

mutual

/-- `JSON.stringify` -/
def stringify : Value → Bytes
  | null => ascii "null"
  | boolean value => ascii (if value then "true" else "false")
  | number _ text => text
  | string value => quoteText value
  | array items => 0x5b :: [0x2c].intercalate (itemTexts items) ++ [0x5d]
  | object members => 0x7b :: [0x2c].intercalate (memberTexts members) ++ [0x7d]

def itemTexts : List Value → List Bytes
  | [] => []
  | item :: items => stringify item :: itemTexts items

def memberTexts : List (Bytes × Value) → List Bytes
  | [] => []
  | (key, value) :: members => (quoteText key ++ 0x3a :: stringify value) :: memberTexts members

end

theorem memberTexts_eq (members : List (Bytes × Value)) :
    memberTexts members = members.map fun m => quoteText m.1 ++ 0x3a :: stringify m.2 := by
  induction members with
  | nil => rfl
  | cons m members ih => rw [memberTexts, ih, List.map_cons]

end Value

/-- The text of an object whose members were set one by one. -/
def DirectClient.Object.text (o : DirectClient.Object) : Bytes :=
  Value.stringify (.object (o.map fun m => (ascii m.1, m.2)))

example : DirectClient.Object.text (DirectClient.ping 7) =
    ascii "\x7b\"type\":\"ping\",\"protocol\":6,\"at\":7\x7d" := by decide

end HarmonyScreen.Extension
