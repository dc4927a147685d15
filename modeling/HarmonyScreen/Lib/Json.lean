import Mathlib.Data.List.Basic
import Mathlib.Algebra.Ring.Int.Defs

namespace HarmonyScreen.Lib.Json

abbrev Text := List UInt8

/-- The values of the dialect: no fractions, no booleans and no null. -/
inductive Value where
  | integer (value : Int)
  | string (value : Text)
  | object (members : List (Text × Value))
  | array (items : List Value)

namespace Value

def asString : Value → Option Text
  | string value => some value
  | _ => none

def asInteger : Value → Option Int
  | integer value => some value
  | _ => none

end Value

def quote : UInt8 := 0x22
def backslash : UInt8 := 0x5c
def colon : UInt8 := 0x3a
def comma : UInt8 := 0x2c
def closeBrace : UInt8 := 0x7d

/-- The whitespace between the tokens. -/
def IsSpace (b : UInt8) : Prop := b = 0x20 ∨ b = 0x09 ∨ b = 0x0d ∨ b = 0x0a

def Spaces (text : Text) : Prop := ∀ b ∈ text, IsSpace b

/-- What has to be escaped, and by which letter. -/
def escapes : List (UInt8 × UInt8) :=
  [(0x22, 0x22), (0x5c, 0x5c), (0x0a, 0x6e), (0x0d, 0x72), (0x09, 0x74)]

/-- The characters of a string and their text between the quotes. -/
inductive Characters : Text → Text → Prop where
  | nil : Characters [] []
  | plain {b : UInt8} {s text : Text} (low : 0x20 ≤ b) (nq : b ≠ quote) (nb : b ≠ backslash)
      (rest : Characters s text) : Characters (b :: s) (b :: text)
  | escaped {b e : UInt8} {s text : Text} (h : (b, e) ∈ escapes)
      (rest : Characters s text) : Characters (b :: s) (backslash :: e :: text)

def StringText (s text : Text) : Prop :=
  ∃ body, Characters s body ∧ text = quote :: body ++ [quote]

def IsDigit (b : UInt8) : Prop := 0x30 ≤ b ∧ b ≤ 0x39

def magnitude (digits : Text) : Nat := digits.foldl (fun value b => value * 10 + (b.toNat - 0x30)) 0

/-- Decimal digits, without a leading zero. -/
structure Digits (digits : Text) : Prop where
  nonempty : digits ≠ []
  all : ∀ b ∈ digits, IsDigit b
  leading : digits.head? = some 0x30 → digits = [0x30]

/-- The texts of a 64-bit integer. -/
inductive IntegerText : Int → Text → Prop where
  | positive {digits : Text} (h : Digits digits) (hi : (magnitude digits : Int) < 2 ^ 63) :
      IntegerText (magnitude digits) digits
  | negative {digits : Text} (h : Digits digits) (lo : -2 ^ 63 ≤ -(magnitude digits : Int)) :
      IntegerText (-(magnitude digits : Int)) (0x2d :: digits)

mutual

inductive ValueText : Value → Text → Prop where
  | integer {n : Int} {text : Text} (h : IntegerText n text) : ValueText (.integer n) text
  | string {s text : Text} (h : StringText s text) : ValueText (.string s) text
  | emptyObject {gap : Text} (h : Spaces gap) : ValueText (.object []) (0x7b :: gap ++ [0x7d])
  | object {members : List (Text × Value)} {text : Text} (distinct : (members.map Prod.fst).Nodup)
      (h : MembersText members text) : ValueText (.object members) (0x7b :: text ++ [0x7d])
  | emptyArray {gap : Text} (h : Spaces gap) : ValueText (.array []) (0x5b :: gap ++ [0x5d])
  | array {items : List Value} {text : Text} (h : ItemsText items text) :
      ValueText (.array items) (0x5b :: text ++ [0x5d])

inductive MemberText : Text × Value → Text → Prop where
  | member {key keyText valueText lead gap space trail : Text} {value : Value} (hl : Spaces lead)
      (hk : StringText key keyText) (hg : Spaces gap) (hs : Spaces space)
      (hv : ValueText value valueText) (ht : Spaces trail) :
      MemberText (key, value) (lead ++ keyText ++ gap ++ colon :: (space ++ valueText ++ trail))

inductive MembersText : List (Text × Value) → Text → Prop where
  | last {member : Text × Value} {text : Text} (h : MemberText member text) :
      MembersText [member] text
  | more {member : Text × Value} {members : List (Text × Value)} {text rest : Text}
      (h : MemberText member text) (hr : MembersText members rest) :
      MembersText (member :: members) (text ++ comma :: rest)

inductive ItemsText : List Value → Text → Prop where
  | last {item : Value} {lead text trail : Text} (hl : Spaces lead) (h : ValueText item text)
      (ht : Spaces trail) : ItemsText [item] (lead ++ text ++ trail)
  | more {item : Value} {items : List Value} {lead text trail rest : Text} (hl : Spaces lead)
      (h : ValueText item text) (ht : Spaces trail) (hr : ItemsText items rest) :
      ItemsText (item :: items) (lead ++ text ++ trail ++ comma :: rest)

end

/-- A value with one of its texts. -/
structure Literal where
  value : Value
  text : Text
  spelled : ValueText value text

/-- A key with one of its texts. -/
structure Name where
  key : Text
  text : Text
  spelled : StringText key text

theorem characters_plain {text : Text}
    (h : ∀ b ∈ text, 0x20 ≤ b ∧ b ≠ quote ∧ b ≠ backslash) : Characters text text := by
  induction text with
  | nil => exact .nil
  | cons b text ih =>
    obtain ⟨low, nq, nb⟩ := h b List.mem_cons_self
    exact .plain low nq nb (ih fun c hc => h c (List.mem_cons_of_mem b hc))

/-- A string that needs no escapes. -/
def Literal.plain (text : Text) (h : ∀ b ∈ text, 0x20 ≤ b ∧ b ≠ quote ∧ b ≠ backslash) :
    Literal where
  value := .string text
  text := quote :: text ++ [quote]
  spelled := .string ⟨text, characters_plain h, rfl⟩

def Name.plain (text : Text) (h : ∀ b ∈ text, 0x20 ≤ b ∧ b ≠ quote ∧ b ≠ backslash) : Name where
  key := text
  text := quote :: text ++ [quote]
  spelled := ⟨text, characters_plain h, rfl⟩

/-- A member of an object up to its value. -/
structure Label where
  lead : Text
  name : Name
  gap : Text
  space : Text
  trail : Text
  hlead : Spaces lead
  hgap : Spaces gap
  hspace : Spaces space
  htrail : Spaces trail

namespace Label

def key (l : Label) : Text := l.name.key

/-- A label without whitespace. -/
def tight (name : Name) : Label where
  lead := []
  name := name
  gap := []
  space := []
  trail := []
  hlead := List.forall_mem_nil _
  hgap := List.forall_mem_nil _
  hspace := List.forall_mem_nil _
  htrail := List.forall_mem_nil _

def front (l : Label) : Text := l.lead ++ l.name.text ++ l.gap

def member (l : Label) (v : Literal) : Text :=
  l.front ++ colon :: (l.space ++ v.text ++ l.trail)

end Label

/-- The text of an object's members, each behind its label. -/
def membersText : List (Label × Literal) → Text
  | [] => []
  | m :: members => m.1.member m.2 ++ members.flatMap fun m => comma :: m.1.member m.2

/-- An object with whitespace around it. -/
structure Document where
  lead : Text
  members : List (Label × Literal)
  trail : Text
  hlead : Spaces lead
  htrail : Spaces trail
  distinct : (members.map fun m => m.1.key).Nodup

def Document.text (d : Document) : Text :=
  d.lead ++ 0x7b :: (membersText d.members ++ closeBrace :: d.trail)

/-- A document with the value of one member left open. -/
structure Slot where
  lead : Text
  earlier : List (Label × Literal)
  label : Label
  later : List (Label × Literal)
  trail : Text
  hlead : Spaces lead
  htrail : Spaces trail
  distinct : ((earlier.map fun m => m.1.key) ++ label.key :: later.map fun m => m.1.key).Nodup

namespace Slot

def key (s : Slot) : Text := s.label.key

def fill (s : Slot) (v : Literal) : Document :=
  { lead := s.lead
    members := s.earlier ++ (s.label, v) :: s.later
    trail := s.trail
    hlead := s.hlead
    htrail := s.htrail
    distinct := by simpa using s.distinct }

/-- The text up to the member's colon. -/
def before (s : Slot) : Text :=
  s.lead ++ 0x7b :: (s.earlier.flatMap fun m => m.1.member m.2 ++ [comma]) ++ s.label.front

/-- The text behind the member's value. -/
def after (s : Slot) : Text :=
  s.label.trail ++ (s.later.flatMap fun m => comma :: m.1.member m.2) ++ closeBrace :: s.trail

end Slot

/-- A separator before each text, or behind each. -/
theorem flatMap_comma {α : Type} (items : List α) (text : α → Text) (rest : Text) :
    (items.flatMap fun i => comma :: text i) ++ comma :: rest =
      comma :: ((items.flatMap fun i => text i ++ [comma]) ++ rest) := by
  induction items with
  | nil => rfl
  | cons i items ih => simp [ih]

theorem membersText_append (earlier later : List (Label × Literal)) (m : Label × Literal) :
    membersText (earlier ++ m :: later) =
      (earlier.flatMap fun m => m.1.member m.2 ++ [comma]) ++ m.1.member m.2 ++
        later.flatMap fun m => comma :: m.1.member m.2 := by
  cases earlier with
  | nil => rfl
  | cons e earlier =>
    have hcomma := flatMap_comma earlier (fun m => m.1.member m.2)
      (m.1.member m.2 ++ later.flatMap fun m => comma :: m.1.member m.2)
    simp [membersText, hcomma]

theorem Slot.fill_text (s : Slot) (v : Literal) :
    (s.fill v).text = s.before ++ colon :: (s.label.space ++ (v.text ++ s.after)) := by
  simp [Document.text, Slot.fill, membersText_append, Slot.before, Slot.after, Label.member]

/-- Every member of a document fills a slot. -/
theorem Document.exists_slot (d : Document) {m : Label × Literal} (h : m ∈ d.members) :
    ∃ s : Slot, s.label = m.1 ∧ s.fill m.2 = d := by
  obtain ⟨earlier, later, hsplit⟩ := List.append_of_mem h
  obtain ⟨lead, members, trail, hlead, htrail, distinct⟩ := d
  subst hsplit
  exact ⟨⟨lead, earlier, m.1, later, trail, hlead, htrail, by simpa using distinct⟩, rfl, rfl⟩

theorem Slot.after_cases (s : Slot) : ∃ gap b rest, s.after = gap ++ b :: rest ∧ Spaces gap ∧
    (b = comma ∨ b = closeBrace) := by
  cases hlater : s.later with
  | nil => exact ⟨s.label.trail, closeBrace, s.trail, by simp [Slot.after, hlater],
      s.label.htrail, .inr rfl⟩
  | cons m later =>
    exact ⟨s.label.trail, comma, m.1.member m.2 ++ (later.flatMap fun m => comma :: m.1.member m.2)
      ++ closeBrace :: s.trail, by simp [Slot.after, hlater], s.label.htrail, .inl rfl⟩

end HarmonyScreen.Lib.Json
