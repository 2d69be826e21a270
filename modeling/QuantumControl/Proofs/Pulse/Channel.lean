import Mathlib.Logic.Function.Basic
import QuantumControl.Proofs.Text.Numeral
import QuantumControl.Pulse.Command

/-!
# Names and order of channels

A channel has one name that is printed, and all the names that are read: its letter, and any
spelling of its index, with a plus sign or with zeros in front.  Reading is exact about them
(`parse_eq_ok_iff`), so that what is printed is read back, and two names of one channel
differ in the spelling of the index only.

The order of channels goes by kind, then by index.  It is that of their places on a line, and
no two channels share a place.
-/

namespace QuantumControl.Pulse

theorem ChannelKind.ofLetter?_eq_some_iff {letter : Char} {kind : ChannelKind} :
    ofLetter? letter = some kind ↔ letter = kind.letter := by
  constructor
  · unfold ofLetter?
    split <;> rintro ⟨⟩ <;> rfl
  · rintro rfl
    exact ofLetter?_letter kind

/-- The letters of the kinds. -/
theorem ChannelKind.exists_letter_eq_iff {letter : Char} :
    (∃ kind : ChannelKind, kind.letter = letter) ↔ letter ∈ ['d', 'u', 'm', 'a', 's', 'c'] := by
  constructor
  · rintro ⟨kind, rfl⟩
    cases kind <;> decide
  · intro mem
    simp only [List.mem_cons, List.not_mem_nil, or_false] at mem
    rcases mem with rfl | rfl | rfl | rfl | rfl | rfl
    exacts [⟨drive, rfl⟩, ⟨control, rfl⟩, ⟨measure, rfl⟩, ⟨acquire, rfl⟩, ⟨memorySlot, rfl⟩,
      ⟨registerSlot, rfl⟩]

namespace Channel

/-! ## Names -/

/-- A text that names a channel is its letter and a spelling of its index. -/
def Spells (c : Channel) (s : String) : Prop :=
  ∃ index, s.toList = c.kind.letter :: index ∧ Text.Spells c.index.toNat index

theorem spells_iff {s : String} {c : Channel} :
    c.Spells s ↔ ∃ sign digits, s.toList = c.kind.letter :: (sign ++ digits) ∧
      (sign = [] ∨ sign = ['+']) ∧ digits ≠ [] ∧ (∀ d ∈ digits, d.isDigit) ∧
      Decimal.digitsValue digits = c.index.toNat := by
  constructor
  · rintro ⟨_, text, sign, digits, rfl, spelled⟩
    exact ⟨sign, digits, text, spelled⟩
  · rintro ⟨sign, digits, text, spelled⟩
    exact ⟨_, text, sign, digits, rfl, spelled⟩

theorem ofName?_eq_some_iff {s : String} {c : Channel} : ofName? s = some c ↔ c.Spells s := by
  unfold ofName? Spells
  cases text : s.toList with
  | nil => exact ⟨nofun, fun ⟨_, same, _⟩ => nomatch same⟩
  | cons letter digits =>
      have there : (∃ index, letter :: digits = c.kind.letter :: index ∧
          Text.Spells c.index.toNat index) ↔
            ChannelKind.ofLetter? letter = some c.kind ∧ Text.word32 digits = .ok c.index := by
        rw [ChannelKind.ofLetter?_eq_some_iff, Text.word32_eq_ok_iff]
        constructor
        · rintro ⟨_, ⟨⟩, spelled⟩
          exact ⟨rfl, spelled⟩
        · rintro ⟨rfl, spelled⟩
          exact ⟨digits, rfl, spelled⟩
      rw [there]
      cases known : ChannelKind.ofLetter? letter with
      | none => simp [known]
      | some kind =>
          cases read : Text.word32 digits with
          | error fault => simp [known, read]
          | ok index => cases c; simp [known, read]

section Parsing

variable {s : String} {c : Channel}

theorem parse_eq_ok_iff : parse s = .ok c ↔ c.Spells s := by
  rw [← ofName?_eq_some_iff, parse]
  cases ofName? s <;> simp

/-- A text that names no channel is reported as it is. -/
theorem parse_eq_error_iff {fault : PulseError} :
    parse s = .error fault ↔ (∀ c : Channel, ¬ c.Spells s) ∧ fault = .invalidChannel s := by
  simp only [← ofName?_eq_some_iff, parse]
  cases ofName? s <;> simp [eq_comm]

end Parsing

theorem toList_name (c : Channel) :
    c.name.toList = c.kind.letter :: Nat.toDigits 10 c.index.toNat := by
  rw [name, String.toList_ofList, Nat.toString_eq_ofList_toDigits, String.toList_ofList]

theorem spells_name (c : Channel) : c.Spells c.name :=
  ⟨_, c.toList_name, Text.spells_toDigits _⟩

@[simp] theorem ofName?_name (c : Channel) : ofName? c.name = some c :=
  ofName?_eq_some_iff.2 c.spells_name

theorem name_injective : Function.Injective name := fun c d same => by
  rw [← Option.some_inj, ← ofName?_name c, same, ofName?_name]

/-- The name that is printed is the one whose index has no sign and no zeros to leave out. -/
theorem spells_plain_iff {s : String} {c : Channel} :
    c.Spells s ∧ Text.Plain s.toList.tail ↔ s = c.name := by
  rw [← String.toList_inj, toList_name]
  constructor
  · rintro ⟨⟨index, text, spelled⟩, plain⟩
    rw [text] at plain ⊢
    rw [Text.spells_plain_iff.1 ⟨spelled, plain⟩]
  · intro text
    rw [text]
    exact ⟨⟨_, text, Text.spells_toDigits _⟩, Text.plain_toDigits _⟩

/-! ## Order -/

theorem rank_injective : Function.Injective ChannelKind.rank := by
  intro j k same
  cases j <;> cases k <;> first | rfl | cases same

theorem place_injective : Function.Injective place := by
  rintro ⟨j, m⟩ ⟨k, n⟩ same
  have hm := m.toNat_lt
  have hn := n.toNat_lt
  simp only [place, UInt32.size] at same
  have kinds : j = k := rank_injective (by omega)
  subst kinds
  rw [UInt32.toNat_inj.1 (by omega : m.toNat = n.toNat)]

instance : Std.Irrefl (fun c d : Channel => c < d) := ⟨fun c => Nat.lt_irrefl c.place⟩

instance : Std.Trichotomous (fun c d : Channel => c < d) :=
  ⟨fun _ _ notBefore notAfter =>
    place_injective (Nat.le_antisymm (Nat.not_lt.1 notAfter) (Nat.not_lt.1 notBefore))⟩

instance : Trans (fun c d : Channel => c < d) (fun c d : Channel => c < d)
    (fun c d : Channel => c < d) :=
  ⟨fun before after => Nat.lt_trans before after⟩

/-- Channels of one kind are in the order of their indices. -/
theorem lt_iff_index_lt {c d : Channel} (same : c.kind = d.kind) :
    c < d ↔ c.index.toNat < d.index.toNat := by
  show c.place < d.place ↔ _
  rw [place, place, same]
  exact Nat.add_lt_add_iff_left

/-! ## Main statement -/

/-- A text is read as a channel if and only if it is a letter for a kind, at most one plus sign and
one or more ASCII digits that write a 32-bit word; it is the channel of that kind and index.  Any
other text is reported as it is.  What is printed is read back, so that different channels have
different names; and of all the texts that are read as one channel, the one that is printed is the
only one without a plus sign and without zeros that could be left out. -/
theorem parse_exact (s : String) :
    ((∃ c, parse s = .ok c) ↔
      ∃ letter sign digits, s.toList = letter :: (sign ++ digits) ∧
        letter ∈ ['d', 'u', 'm', 'a', 's', 'c'] ∧ (sign = [] ∨ sign = ['+']) ∧ digits ≠ [] ∧
        (∀ d ∈ digits, d.isDigit) ∧ Decimal.digitsValue digits ≤ 4294967295) ∧
    (∀ c, parse s = .ok c ↔
      ∃ sign digits, s.toList = c.kind.letter :: (sign ++ digits) ∧
        (sign = [] ∨ sign = ['+']) ∧ digits ≠ [] ∧ (∀ d ∈ digits, d.isDigit) ∧
        Decimal.digitsValue digits = c.index.toNat) ∧
    (∀ fault, parse s = .error fault ↔
      (∀ c, parse s ≠ .ok c) ∧ fault = .invalidChannel s) ∧
    (∀ c : Channel, parse c.name = .ok c) ∧ Function.Injective name ∧
    ∀ c, parse s = .ok c →
      ∀ t, parse t = .ok c ∧ Text.Plain t.toList.tail ↔ t = c.name := by
  refine ⟨⟨?_, ?_⟩, fun c => parse_eq_ok_iff.trans spells_iff, fun fault => ?_,
    fun c => parse_eq_ok_iff.2 c.spells_name, name_injective, fun c _ t => ?_⟩
  · rintro ⟨c, read⟩
    obtain ⟨sign, digits, text, signed, nonempty, ascii, value⟩ :=
      spells_iff.1 (parse_eq_ok_iff.1 read)
    exact ⟨_, sign, digits, text, ChannelKind.exists_letter_eq_iff.1 ⟨c.kind, rfl⟩, signed,
      nonempty, ascii, value ▸ Nat.le_of_lt_succ c.index.toNat_lt⟩
  · rintro ⟨letter, sign, digits, text, known, signed, nonempty, ascii, bounded⟩
    obtain ⟨kind, rfl⟩ := ChannelKind.exists_letter_eq_iff.2 known
    have index : (Decimal.digitsValue digits).toUInt32.toNat = Decimal.digitsValue digits :=
      Nat.mod_eq_of_lt (Nat.lt_succ_of_le bounded)
    exact ⟨⟨kind, (Decimal.digitsValue digits).toUInt32⟩, parse_eq_ok_iff.2 <|
      spells_iff.2 ⟨sign, digits, text, signed, nonempty, ascii, index.symm⟩⟩
  · simp only [parse_eq_error_iff, ne_eq, parse_eq_ok_iff]
  · rw [parse_eq_ok_iff, spells_plain_iff]

/-- A plus sign and zeros are read and not printed, and the largest index fits. -/
theorem parse_exact_padded :
    parse "m+007" = .ok (.measure 7) ∧
      (parse "m7" = .ok (.measure 7) ∧ Text.Plain "m7".toList.tail) ∧
      ¬ (parse "m+007" = .ok (.measure 7) ∧ Text.Plain "m+007".toList.tail) ∧
      ∃ c, parse "u4294967295" = .ok c := by
  have read : parse "m+007" = .ok (.measure 7) := rfl
  obtain ⟨-, -, -, -, -, unique⟩ := parse_exact "m+007"
  obtain ⟨wide, -⟩ := parse_exact "u4294967295"
  refine ⟨read, (unique _ read "m7").2 rfl, mt (unique _ read "m+007").1 (by decide), wide.2 ?_⟩
  exact ⟨'u', [], "4294967295".toList, rfl, by decide, .inl rfl, by decide,
    List.all_eq_true.1 rfl, by decide⟩

end Channel

end QuantumControl.Pulse
