import HarmonyScreen.Lib.Dialogue
import HarmonyScreen.Extension.JsonText
import HarmonyScreen.Receiver.Authentication

namespace HarmonyScreen.Link
open Lib Receiver Receiver.ReceiverSession Extension Extension.DirectClient

/-- What the script does by itself during an exchange in which nothing fails. -/
inductive Act where
  | opened
  | verified
  deriving DecidableEq

def Act.event : Act → Event
  | opened => .opened false
  | verified => .verified true false

def sentText : DirectClient.Observation → Option Bytes
  | .sent request => some request.text
  | _ => none

/-- The texts that the script has sent. -/
def sentTexts (log : List DirectClient.Observation) : List Bytes := log.filterMap sentText

def wholeReply : Receiver.Observation → Option Reply
  | .reply r true => some r
  | _ => none

/-- The replies that went out whole. -/
def wholeReplies (log : List Receiver.Observation) : List Reply := log.filterMap wholeReply

/-- What the loop of `AuthenticateConnection` does with a further text. -/
def serve : Handled → Option (Bytes → Session Handled)
  | .next stage => some fun text => handleMessage stage ⟨.text, text⟩
  | .returned _ => none

/-- An exchange of the script with a Receiver whose log was of this length when it accepted the
connection; every text arrives. -/
def conversation (p : Platform) (r : Options) (begun : Nat) (offers : External → Prop)
    (other : ReceiverSession → ReceiverSession → Prop) :
    Dialogue Exchange Act Bytes Reply ReceiverSession External Handled where
  act a x := exchangeStep p r x a.event
  hear reply x := exchangeStep p r x (.message (.text reply.text))
  sent x := sentTexts x.log
  serve := serve
  said s := wholeReplies (s.log.drop begun)
  offers := offers
  other := other

abbrev Meeting := Dialogue.State Exchange Bytes Reply ReceiverSession External Handled

/-- A connection that was just accepted. -/
def Meeting.start (s : ReceiverSession) : Meeting where
  client := {}
  heard := []
  server := .ret (.next .initial)
  taken := []
  session := s

end HarmonyScreen.Link
