import QuantumControl.Text.Numeral

/-! # Channels

A channel is a line of the control hardware: its kind and its index. Its name is one letter for the
kind followed by the index in decimal. Reading also takes a plus sign and leading zeros. -/

namespace QuantumControl.Pulse

/-- What a channel is connected to, in the order in which channels are listed. -/
inductive ChannelKind where
  | drive
  | control
  | measure
  | acquire
  | memorySlot
  | registerSlot
deriving DecidableEq, Repr

namespace ChannelKind

def letter : ChannelKind → Char
  | drive => 'd'
  | control => 'u'
  | measure => 'm'
  | acquire => 'a'
  | memorySlot => 's'
  | registerSlot => 'c'

def ofLetter? : Char → Option ChannelKind
  | 'd' => some drive
  | 'u' => some control
  | 'm' => some measure
  | 'a' => some acquire
  | 's' => some memorySlot
  | 'c' => some registerSlot
  | _ => none

@[simp] theorem ofLetter?_letter (k : ChannelKind) : ofLetter? k.letter = some k := by
  cases k <;> rfl

def rank : ChannelKind → Nat
  | drive => 0
  | control => 1
  | measure => 2
  | acquire => 3
  | memorySlot => 4
  | registerSlot => 5

/-- The kinds that play waveforms. -/
def isOutput : ChannelKind → Bool
  | drive | control | measure => true
  | acquire | memorySlot | registerSlot => false

end ChannelKind

structure Channel where
  kind : ChannelKind
  index : UInt32
deriving DecidableEq, Repr

namespace Channel

abbrev drive (index : UInt32) : Channel := ⟨.drive, index⟩
abbrev control (index : UInt32) : Channel := ⟨.control, index⟩
abbrev measure (index : UInt32) : Channel := ⟨.measure, index⟩
abbrev acquire (index : UInt32) : Channel := ⟨.acquire, index⟩
abbrev memorySlot (index : UInt32) : Channel := ⟨.memorySlot, index⟩
abbrev registerSlot (index : UInt32) : Channel := ⟨.registerSlot, index⟩

def isOutput (c : Channel) : Bool := c.kind.isOutput

/-- Only drive and measure channels are fed by a local oscillator. -/
def hasOscillator (c : Channel) : Bool := c.kind = .drive || c.kind = .measure

/-- The place of a channel in the listing order: first by kind, then by index. -/
def place (c : Channel) : Nat := c.kind.rank * UInt32.size + c.index.toNat

instance : LT Channel := ⟨fun c d => c.place < d.place⟩
instance (c d : Channel) : Decidable (c < d) := inferInstanceAs (Decidable (c.place < d.place))
instance : DecidableLT Channel := fun c d => inferInstanceAs (Decidable (c.place < d.place))

def name (c : Channel) : String :=
  String.ofList (c.kind.letter :: (toString c.index.toNat).toList)

instance : ToString Channel := ⟨name⟩

/-- Read a channel's name. -/
def ofName? (s : String) : Option Channel :=
  match s.toList with
  | [] => none
  | letter :: digits =>
      match ChannelKind.ofLetter? letter, Text.word32 digits with
      | some kind, .ok index => some ⟨kind, index⟩
      | _, _ => none

end Channel

end QuantumControl.Pulse
