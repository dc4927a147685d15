import HarmonyScreen.Receiver.Sha256

namespace HarmonyScreen.Receiver.WebSocket
open Protocol

section Sha1

def rotateLeft (value count : UInt32) : UInt32 := (value <<< count) ||| (value >>> (32 - count))

def sha1Word (words : Array UInt32) (index : Nat) : UInt32 :=
  rotateLeft (words.getD (index + 13) 0 ^^^ words.getD (index + 8) 0 ^^^ words.getD (index + 2) 0 ^^^
    words.getD index 0) 1

/-- The block's sixteen words, and each later one from those before it. -/
def sha1Words (bytes : Bytes) (count : Nat) : Array UInt32 :=
  (List.range count).foldl (fun words index => words.push (sha1Word words index))
    ((List.range 16).map fun index => (readBig ((bytes.drop (index * 4)).take 4)).toUInt32).toArray

structure Sha1State where
  a : UInt32
  b : UInt32
  c : UInt32
  d : UInt32
  e : UInt32

namespace Sha1State

def initial : Sha1State := ⟨0x67452301, 0xEFCDAB89, 0x98BADCFE, 0x10325476, 0xC3D2E1F0⟩

def round (s : Sha1State) (index : Nat) (word : UInt32) : Sha1State :=
  let r : UInt32 × UInt32 :=
    if index < 20 then ((s.b &&& s.c) ||| (~~~s.b &&& s.d), 0x5A827999)
    else if index < 40 then (s.b ^^^ s.c ^^^ s.d, 0x6ED9EBA1)
    else if index < 60 then ((s.b &&& s.c) ||| (s.b &&& s.d) ||| (s.c &&& s.d), 0x8F1BBCDC)
    else (s.b ^^^ s.c ^^^ s.d, 0xCA62C1D6)
  let temporary := rotateLeft s.a 5 + r.1 + s.e + r.2 + word
  ⟨temporary, s.a, rotateLeft s.b 30, s.c, s.d⟩

def add (s t : Sha1State) : Sha1State := ⟨s.a + t.a, s.b + t.b, s.c + t.c, s.d + t.d, s.e + t.e⟩

def block (hash : Sha1State) (bytes : Bytes) : Sha1State :=
  let words := sha1Words bytes 64
  hash.add ((List.range 80).foldl (fun s index => s.round index (words.getD index 0)) hash)

def digest (s : Sha1State) : Bytes :=
  [s.a, s.b, s.c, s.d, s.e].flatMap fun word => bigEndian 4 word.toNat

end Sha1State

def sha1 (input : Bytes) : Bytes :=
  let message := pushZeros (input ++ [0x80]) ++ bigEndian 8 (input.length * 8)
  ((List.range (message.length / 64)).foldl
    (fun hash offset => hash.block ((message.drop (offset * 64)).take 64)) Sha1State.initial).digest

end Sha1

section Base64

def base64Alphabet : Bytes :=
  ascii "ABCDEFGHIJKLMNOPQRSTUVWXYZabcdefghijklmnopqrstuvwxyz0123456789+/"

def base64 (data : Bytes) : Bytes :=
  (List.range ((data.length + 2) / 3)).flatMap fun index =>
    let offset := index * 3
    let a := (data.getD offset 0).toNat
    let b := (data.getD (offset + 1) 0).toNat
    let c := (data.getD (offset + 2) 0).toNat
    let value := (a <<< 16) ||| (b <<< 8) ||| c
    [base64Alphabet.getD ((value >>> 18) &&& 0x3f) 0,
      base64Alphabet.getD ((value >>> 12) &&& 0x3f) 0,
      if offset + 1 < data.length then base64Alphabet.getD ((value >>> 6) &&& 0x3f) 0 else 0x3d,
      if offset + 2 < data.length then base64Alphabet.getD (value &&& 0x3f) 0 else 0x3d]

end Base64

section Header

/-- `std::tolower` of the C locale. -/
def toLower (c : UInt8) : UInt8 := if 0x41 ≤ c ∧ c ≤ 0x5a then c + 0x20 else c

def lower (value : Bytes) : Bytes := value.map toLower

def npos : Nat := 2 ^ 64 - 1

def crlf : Bytes := [0x0d, 0x0a]

def findFirst (needle : Bytes) : Bytes → Option Nat
  | [] => if needle = [] then some 0 else none
  | b :: text =>
    if needle.isPrefixOf (b :: text) then some 0 else (findFirst needle text).map (· + 1)

/-- `text.find(needle, start)`; `none` stands for `npos`. -/
def find (text needle : Bytes) (start : Nat) : Option Nat :=
  (findFirst needle (text.drop start)).map (start + ·)

/-- `text.substr(start, count)`; `none` where it throws. -/
def substr (text : Bytes) (start count : Nat) : Option Bytes :=
  if start > text.length then none else some ((text.drop start).take count)

theorem find_le {text needle : Bytes} {start i : Nat} (h : find text needle start = some i) :
    start ≤ i := by
  obtain ⟨j, -, rfl⟩ := Option.map_eq_some_iff.mp h
  exact Nat.le_add_right start j

/-- The spaces in front of a value; `none` where a read is out of range. -/
def skipSpaces (request : Bytes) (valueStart stop : Nat) : Option Nat :=
  if valueStart < stop then
    match request[valueStart]? with
    | none => none
    | some c => if c = 0x20 then skipSpaces request (valueStart + 1) stop else some valueStart
  else some valueStart
termination_by stop - valueStart

/-- The colon of a line whose name is the one looked for. -/
def namedColon (request target : Bytes) (start stop : Nat) : Option (Option Nat) :=
  match find request [0x3a] start with
  | none => some none
  | some colon =>
    if colon < stop then
      (substr request start (colon - start)).map fun name =>
        if lower name = target then some colon else none
    else some none

/-- The loop of `Header`; the outer `none` where a read is out of range. -/
def headerFrom (request target : Bytes) (start : Nat) : Option (Option Bytes) :=
  if start < request.length then
    match _h : find request crlf start with
    | none => some none
    | some stop =>
      if stop = start then some none
      else
        match namedColon request target start stop with
        | none => none
        | some none => headerFrom request target (stop + 2)
        | some (some colon) =>
          (skipSpaces request (colon + 1) stop).bind fun valueStart =>
            (substr request valueStart (stop - valueStart)).map some
  else some none
termination_by request.length - start
decreasing_by
  have := find_le _h
  omega

/-- `start` is a `std::size_t`: without a line end it is 1. -/
def header (request name : Bytes) : Option (Option Bytes) :=
  headerFrom request (lower name) (((find request crlf 0).getD npos + 2) % 2 ^ 64)

end Header

section Response

def kMagic : Bytes := ascii "258EAFA5-E914-47DA-95CA-C5AB0DC85B11"

def kMaxUpgradeBytes : Nat := 16 * 1024

def upgradeResponse (accept : Bytes) : Bytes :=
  ascii "HTTP/1.1 101 Switching Protocols\r\nUpgrade: websocket\r\nConnection: Upgrade\r\n" ++
    ascii "Sec-WebSocket-Accept: " ++ accept ++ ascii "\r\n\r\n"

/-- The response, if the request is accepted; the outer `none` where a read is out of range. -/
def buildUpgradeResponse (request : Bytes) : Option (Option Bytes) :=
  (header request (ascii "Connection")).bind fun connection =>
  if request.length > kMaxUpgradeBytes ∨
      !(ascii "GET /direct HTTP/1.1\r\n").isPrefixOf request then some none
  else
    (header request (ascii "Upgrade")).bind fun upgrade =>
    if lower (upgrade.getD []) ≠ ascii "websocket" ∨
        find (lower (connection.getD [])) (ascii "upgrade") 0 = none then some none
    else
      (header request (ascii "Sec-WebSocket-Version")).bind fun version =>
      if version ≠ some (ascii "13") then some none
      else
        (header request (ascii "Sec-WebSocket-Key")).map fun key =>
          key.bind fun key =>
            if key.length < 20 ∨ key.length > 64 then none
            else some (upgradeResponse (base64 (sha1 (key ++ kMagic))))

end Response

end HarmonyScreen.Receiver.WebSocket
