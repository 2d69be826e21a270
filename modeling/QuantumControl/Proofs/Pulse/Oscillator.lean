import Mathlib.Order.Bounds.Basic
import QuantumControl.Proofs.Decimal.Comparison
import QuantumControl.Proofs.Pulse.Channel
import QuantumControl.Proofs.Table.Sorted
import QuantumControl.Pulse.Oscillator

/-!
# Which frequencies overrides give

A call for an override succeeds by what it asks for alone, whatever was set before, and then
writes into a table that is kept in the order of the channels.  So after any history of calls
the table is what the calls that succeeded leave when they are sorted, each channel with the
last frequency set on it (`overrides_play`).

Overrides of one kind are applied in the order of their indices, and stop at the first index
that is out of range: it is the smallest one.  No two of them have one index, so that the
order does not show in a list that comes out.
-/

namespace QuantumControl.Pulse.LoConfig

/-! ## One call -/

/-- What can be set: a finite positive frequency of a channel with an oscillator. -/
structure Settable (channel : Channel) (frequency : Float) : Prop where
  oscillator : channel.kind = .drive ∨ channel.kind = .measure
  finite : frequency.isFinite
  positive : 0 < frequency

instance (channel : Channel) (frequency : Float) : Decidable (Settable channel frequency) :=
  decidable_of_iff ((channel.kind = .drive ∨ channel.kind = .measure) ∧ frequency.isFinite ∧
    0 < frequency) ⟨fun h => ⟨h.1, h.2.1, h.2.2⟩, fun h => ⟨h.1, h.2, h.3⟩⟩

section Call

variable {config changed : LoConfig} {channel : Channel} {frequency : Float}

theorem hasOscillator_iff :
    channel.hasOscillator ↔ channel.kind = .drive ∨ channel.kind = .measure := by
  simp [Channel.hasOscillator]

theorem set_of_settable (h : Settable channel frequency) :
    config.set channel frequency =
      .ok ⟨Sorted.insert channel frequency config.overrides⟩ := by
  have above : ¬ frequency ≤ 0 :=
    (Decimal.not_le_iff_lt (Decimal.isNaN_of_isFinite h.finite) rfl).2 h.positive
  simp [set, hasOscillator_iff.2 h.oscillator, h.finite, above]

/-- A call for anything else fails. -/
theorem exists_set_eq_error (config : LoConfig) (h : ¬ Settable channel frequency) :
    ∃ fault, config.set channel frequency = .error fault := by
  unfold set
  split_ifs with lacking refused
  · exact ⟨_, rfl⟩
  · exact ⟨_, rfl⟩
  · simp only [Bool.or_eq_true, Bool.not_eq_true', not_or, Bool.not_eq_false,
      decide_eq_true_eq] at lacking refused
    refine absurd ⟨hasOscillator_iff.1 lacking, refused.1, ?_⟩ h
    exact (Decimal.not_le_iff_lt (Decimal.isNaN_of_isFinite refused.1) rfl).1 refused.2

theorem set_eq_ok_iff :
    config.set channel frequency = .ok changed ↔
      Settable channel frequency ∧
        changed = ⟨Sorted.insert channel frequency config.overrides⟩ := by
  by_cases h : Settable channel frequency
  · rw [set_of_settable h, and_iff_right h, Except.ok.injEq, eq_comm]
  · obtain ⟨fault, failed⟩ := exists_set_eq_error config h
    rw [failed]
    exact ⟨nofun, fun settable => absurd settable.1 h⟩

end Call

/-! ## Histories -/

/-- A call for an override, made in place or for a changed configuration to go on with. -/
structure Call where
  inPlace : Bool
  channel : Channel
  frequency : Float

/-- The configuration after a call; a call that fails leaves it as it was. -/
def after (config : LoConfig) (call : Call) : LoConfig :=
  if call.inPlace then (config.setInPlace call.channel call.frequency).2
  else match config.set call.channel call.frequency with
    | .ok changed => changed
    | .error _ => config

/-- The configuration after a history of calls. -/
def play (calls : List Call) : LoConfig := calls.foldl after empty

/-- What is set by the calls of a history that succeed, in order. -/
def sets (config : LoConfig) : List Call → List (Channel × Float)
  | [] => []
  | call :: rest =>
      match config.set call.channel call.frequency with
      | .ok _ => (call.channel, call.frequency) :: sets (config.after call) rest
      | .error _ => sets (config.after call) rest

/-- The frequencies that calls ask for on a channel, in order. -/
def asked (c : Channel) (calls : List Call) : List Float :=
  (calls.filter (·.channel = c)).map Call.frequency

section History

variable {config : LoConfig} {call : Call}

theorem after_of_settable (h : Settable call.channel call.frequency) :
    config.after call = ⟨Sorted.insert call.channel call.frequency config.overrides⟩ := by
  simp [after, setInPlace, set_of_settable h]

theorem after_of_not_settable (h : ¬ Settable call.channel call.frequency) :
    config.after call = config := by
  obtain ⟨fault, failed⟩ := exists_set_eq_error config h
  simp [after, setInPlace, failed]

/-- The calls that succeed are those for what can be set. -/
theorem sets_eq (config : LoConfig) (calls : List Call) :
    sets config calls =
      (calls.map fun call => (call.channel, call.frequency)).filter fun e => Settable e.1 e.2 := by
  induction calls generalizing config with
  | nil => rfl
  | cons call rest ih =>
      by_cases h : Settable call.channel call.frequency
      · simp [sets, set_of_settable h, ih, h]
      · obtain ⟨fault, failed⟩ := exists_set_eq_error config h
        simp [sets, failed, ih, h]

/-- Playing a history writes what is set, one after the other. -/
theorem overrides_foldl_after (config : LoConfig) (calls : List Call) :
    (calls.foldl after config).overrides =
      (sets config calls).foldl (fun sorted e => Sorted.insert e.1 e.2 sorted)
        config.overrides := by
  induction calls generalizing config with
  | nil => rfl
  | cons call rest ih =>
      rw [List.foldl_cons, ih]
      by_cases h : Settable call.channel call.frequency
      · rw [sets, set_of_settable h]
        simp only [List.foldl_cons, after_of_settable h]
      · obtain ⟨fault, failed⟩ := exists_set_eq_error config h
        rw [sets, failed]
        simp only [after_of_not_settable h]

theorem overrides_play (calls : List Call) :
    (play calls).overrides = Sorted.ofList (sets empty calls) :=
  overrides_foldl_after empty calls

end History

/-! ## The last frequency of a channel -/

/-- The last frequency that is set on the channel of a kind with an index. -/
def lastSet (kind : ChannelKind) (i : Nat) (sets : List (Channel × Float)) : Option Float :=
  (sets.filter fun e => e.1.kind = kind ∧ e.1.index.toNat = i).getLast?.map Prod.snd

/-- The overrides of one kind in their order, when pairs are set one after the other. -/
def ofKind (kind : ChannelKind) (sets : List (Channel × Float)) : List (Channel × Float) :=
  Sorted.ofList (sets.filter (·.1.kind = kind))

section Last

variable {kind : ChannelKind} {sets : List (Channel × Float)}

theorem lastSet_toNat (kind : ChannelKind) (w : UInt32) (sets : List (Channel × Float)) :
    lastSet kind w.toNat sets = Table.find ⟨kind, w⟩ sets.reverse := by
  have here (c : Channel) : c.kind = kind ∧ c.index.toNat = w.toNat ↔ c = ⟨kind, w⟩ := by
    cases c
    rw [UInt32.toNat_inj, Channel.mk.injEq]
  simp only [lastSet, here, Table.find_reverse]

theorem ascending_ofKind (kind : ChannelKind) (sets : List (Channel × Float)) :
    Sorted.Ascending (ofKind kind sets) := Sorted.ascending_ofList _

theorem find_ofKind (kind : ChannelKind) (sets : List (Channel × Float)) (c : Channel) :
    Table.find c (ofKind kind sets) =
      if c.kind = kind then Table.find c sets.reverse else none := by
  rw [ofKind, Sorted.find_ofList, ← List.filter_reverse,
    Table.find_filter fun c : Channel => decide (c.kind = kind)]
  simp only [decide_eq_true_eq]

theorem mem_ofKind {c : Channel} {x : Float} :
    (c, x) ∈ ofKind kind sets ↔ c.kind = kind ∧ lastSet kind c.index.toNat sets = some x := by
  rw [← (ascending_ofKind kind sets).find_eq_some_iff, find_ofKind, lastSet_toNat]
  by_cases h : c.kind = kind
  · subst h
    simp
  · simp [h]

/-- The overrides of one kind are the last frequencies of its channels. -/
theorem lastSet_eq_some_iff {i : Nat} {x : Float} :
    lastSet kind i sets = some x ↔
      ∃ w : UInt32, w.toNat = i ∧ (⟨kind, w⟩, x) ∈ ofKind kind sets := by
  simp only [mem_ofKind, true_and]
  constructor
  · intro last
    obtain ⟨e, found, -⟩ := Option.map_eq_some_iff.1 last
    have index := (List.mem_filter.1 (List.mem_of_getLast? found)).2
    simp only [decide_eq_true_eq] at index
    exact ⟨e.1.index, index.2, index.2.symm ▸ last⟩
  · rintro ⟨w, rfl, last⟩
    exact last

/-- The overrides of one kind go up in their indices. -/
theorem pairwise_ofKind (kind : ChannelKind) (sets : List (Channel × Float)) :
    (ofKind kind sets).Pairwise fun a b => a.1.index.toNat < b.1.index.toNat :=
  (ascending_ofKind kind sets).imp_of_mem fun ha hb less =>
    (Channel.lt_iff_index_lt ((mem_ofKind.1 ha).1.trans (mem_ofKind.1 hb).1.symm)).1 less

end Last

/-! ## Applying overrides -/

section Applying

/-- Overrides are applied up to the first one that is out of range. -/
theorem foldlM_override (es : List (Channel × Float)) (fs : List Float) :
    es.foldlM override fs =
      match es.find? fun e => fs.length ≤ e.1.index.toNat with
      | some e => .error (.oscillatorOutOfRange e.1.name fs.length)
      | none => .ok (es.foldl (fun fs e => fs.set e.1.index.toNat e.2) fs) := by
  induction es generalizing fs with
  | nil => rfl
  | cons e es ih =>
      rw [List.foldlM_cons, override]
      by_cases inside : e.1.index.toNat < fs.length
      · rw [if_pos inside, List.find?_cons_of_neg (by simpa using inside)]
        refine (ih _).trans ?_
        rw [List.length_set]
        rfl
      · rw [if_neg inside, List.find?_cons_of_pos (by simpa using inside)]
        rfl

theorem length_foldl_set (es : List (Channel × Float)) (fs : List Float) :
    (es.foldl (fun fs e => fs.set e.1.index.toNat e.2) fs).length = fs.length := by
  induction es generalizing fs with
  | nil => rfl
  | cons e es ih => rw [List.foldl_cons, ih, List.length_set]

/-- An index without an override keeps its frequency. -/
theorem getElem?_foldl_set_of_ne {es : List (Channel × Float)} {i : Nat}
    (other : ∀ e ∈ es, e.1.index.toNat ≠ i) (fs : List Float) :
    (es.foldl (fun fs e => fs.set e.1.index.toNat e.2) fs)[i]? = fs[i]? := by
  induction es generalizing fs with
  | nil => rfl
  | cons e es ih =>
      obtain ⟨here, later⟩ := List.forall_mem_cons.1 other
      rw [List.foldl_cons, ih later, List.getElem?_set_ne here]

/-- An override takes the place of the frequency with its index, if no two have one index. -/
theorem getElem?_foldl_set_of_mem {es : List (Channel × Float)}
    (distinct : es.Pairwise fun a b => a.1.index.toNat < b.1.index.toNat) {e : Channel × Float}
    (mem : e ∈ es) {fs : List Float} (inside : e.1.index.toNat < fs.length) :
    (es.foldl (fun fs e => fs.set e.1.index.toNat e.2) fs)[e.1.index.toNat]? = some e.2 := by
  induction es generalizing fs with
  | nil => cases mem
  | cons first es ih =>
      obtain ⟨above, distinct⟩ := List.pairwise_cons.1 distinct
      rw [List.foldl_cons]
      rcases List.mem_cons.1 mem with rfl | later
      · rw [getElem?_foldl_set_of_ne fun d hd => Nat.ne_of_gt (above d hd)]
        exact List.getElem?_set_self inside
      · exact ih distinct later (by rwa [List.length_set])

end Applying

/-- What the overrides of one kind come to on default frequencies, after what was set: they are
refused for the smallest index out of range, and else take the place of the defaults with their
indices. -/
structure Applied (kind : ChannelKind) (sets : List (Channel × Float)) (defaults : List Float)
    (answer : Except PulseError (List Float)) : Prop where
  exists_iff : (∃ fs, answer = .ok fs) ↔
    ∀ i, (lastSet kind i sets).isSome → i < defaults.length
  length_eq : ∀ fs, answer = .ok fs → fs.length = defaults.length
  entry : ∀ fs, answer = .ok fs → ∀ i x, defaults[i]? = some x →
    fs[i]? = some ((lastSet kind i sets).getD x)
  fault_iff : ∀ fault, answer = .error fault ↔
    ∃ w : UInt32,
      IsLeast {i | (lastSet kind i sets).isSome ∧ defaults.length ≤ i} w.toNat ∧
        fault = .oscillatorOutOfRange (Channel.name ⟨kind, w⟩) defaults.length

section Frequencies

variable {kind : ChannelKind} {sets : List (Channel × Float)}

/-- With every index in range the overrides are applied. -/
theorem applied_of_inside {defaults : List Float}
    (inside : ∀ e ∈ ofKind kind sets, e.1.index.toNat < defaults.length) :
    Applied kind sets defaults
      (.ok ((ofKind kind sets).foldl (fun fs e => fs.set e.1.index.toNat e.2) defaults)) := by
  have below : ∀ i, (lastSet kind i sets).isSome → i < defaults.length := by
    intro i overridden
    obtain ⟨x, last⟩ := Option.isSome_iff_exists.1 overridden
    obtain ⟨w, rfl, mem⟩ := lastSet_eq_some_iff.1 last
    exact inside _ mem
  constructor
  case exists_iff => exact ⟨fun _ => below, fun _ => ⟨_, rfl⟩⟩
  case length_eq =>
    rintro _ ⟨⟩
    exact length_foldl_set _ _
  case entry =>
    rintro _ ⟨⟩ i x default
    cases last : lastSet kind i sets with
    | some y =>
        obtain ⟨w, rfl, mem⟩ := lastSet_eq_some_iff.1 last
        exact getElem?_foldl_set_of_mem (pairwise_ofKind kind sets) mem (inside _ mem)
    | none =>
        refine (getElem?_foldl_set_of_ne (fun e mem same => ?_) defaults).trans default
        obtain ⟨-, here⟩ := mem_ofKind.1 mem
        rw [same, last] at here
        cases here
  case fault_iff =>
    refine fun fault => ⟨nofun, ?_⟩
    rintro ⟨w, ⟨⟨overridden, outside⟩, -⟩, -⟩
    exact absurd (below _ overridden) (Nat.not_lt.2 outside)

/-- The first override that is out of range has the smallest such index, and is reported. -/
theorem applied_of_refused {defaults : List Float} {e : Channel × Float}
    (refused : (ofKind kind sets).find? (fun e => defaults.length ≤ e.1.index.toNat) = some e) :
    Applied kind sets defaults
      (.error (.oscillatorOutOfRange e.1.name defaults.length)) := by
  obtain ⟨outside, front, back, whole, inside⟩ := List.find?_eq_some_iff_append.1 refused
  rw [decide_eq_true_eq] at outside
  obtain ⟨rfl, here⟩ := mem_ofKind.1 (List.mem_of_find?_eq_some refused)
  have overridden : (lastSet e.1.kind e.1.index.toNat sets).isSome := by rw [here]; rfl
  have least : IsLeast {i | (lastSet e.1.kind i sets).isSome ∧ defaults.length ≤ i}
      e.1.index.toNat := by
    refine ⟨⟨overridden, outside⟩, ?_⟩
    rintro i ⟨other, above⟩
    obtain ⟨x, last⟩ := Option.isSome_iff_exists.1 other
    obtain ⟨w, rfl, mem⟩ := lastSet_eq_some_iff.1 last
    have order := pairwise_ofKind e.1.kind sets
    rw [whole, List.pairwise_append, List.pairwise_cons] at order
    rw [whole] at mem
    rcases List.mem_append.1 mem with before | mem
    · exact absurd above (by simpa using inside _ before)
    · rcases List.mem_cons.1 mem with same | after
      · rw [← same]
      · exact (order.2.1.1 _ after).le
  constructor
  case exists_iff =>
    refine ⟨nofun, fun below => ?_⟩
    exact absurd (below _ overridden) (Nat.not_lt.2 outside)
  case length_eq => exact nofun
  case entry => exact nofun
  case fault_iff =>
    intro fault
    rw [Except.error.injEq]
    constructor
    · rintro rfl
      exact ⟨e.1.index, least, rfl⟩
    · rintro ⟨w, other, rfl⟩
      rw [UInt32.toNat_inj.1 (other.unique least)]

theorem applied (kind : ChannelKind) (sets : List (Channel × Float)) (defaults : List Float) :
    Applied kind sets defaults ((ofKind kind sets).foldlM override defaults) := by
  rw [foldlM_override]
  cases refused : (ofKind kind sets).find? fun e => defaults.length ≤ e.1.index.toNat with
  | none => exact applied_of_inside (by simpa using List.find?_eq_none.1 refused)
  | some e => exact applied_of_refused refused

theorem frequencies_play (calls : List Call) (kind : ChannelKind) (defaults : List Float) :
    (play calls).frequencies kind defaults =
      (ofKind kind (LoConfig.sets empty calls)).foldlM override defaults := by
  rw [frequencies, overrides_play, Sorted.filter_ofList fun c : Channel => decide (c.kind = kind)]
  rfl

theorem filter_sets (c : Channel) (calls : List Call) :
    (LoConfig.sets empty calls).filter (·.1 = c) =
      ((asked c calls).filter fun x => Settable c x).map fun x => (c, x) := by
  rw [sets_eq]
  induction calls with
  | nil => rfl
  | cons call rest ih =>
      by_cases here : call.channel = c
      · subst here
        by_cases h : Settable call.channel call.frequency
        · simpa [asked, h] using ih
        · simpa [asked, h] using ih
      · by_cases h : Settable call.channel call.frequency
        · simpa [asked, h, here] using ih
        · simpa [asked, h, here] using ih

/-- The calls for one kind of channel decide, and for each channel their own order only. -/
theorem frequencies_play_congr {calls others : List Call}
    (same : ∀ w, asked ⟨kind, w⟩ calls = asked ⟨kind, w⟩ others) (defaults : List Float) :
    (play calls).frequencies kind defaults = (play others).frequencies kind defaults := by
  have overrides : ofKind kind (LoConfig.sets empty calls) =
      ofKind kind (LoConfig.sets empty others) := by
    refine (ascending_ofKind kind _).ext (ascending_ofKind kind _) fun c => ?_
    rw [find_ofKind, find_ofKind, Table.find_reverse, Table.find_reverse, filter_sets,
      filter_sets]
    split
    · next here =>
        subst here
        rw [same c.index]
    · rfl
  rw [frequencies_play, frequencies_play, overrides]

end Frequencies

/-- After any history of calls for overrides, the frequencies of the qubits are the defaults with
the last frequency that was set on a drive channel in place of the one with its index.  They are
refused if and only if some drive channel that was set is out of range, for the smallest such
channel.  Only the frequencies that calls ask for on each drive channel count, in the order of the
calls for it: calls for other channels, and the order of calls for different channels, do not.  The
same holds for the frequencies of measurements and measure channels. -/
theorem overrides_pointwise (calls : List Call) (defaults : List Float) :
    Applied .drive (sets empty calls) defaults ((play calls).qubitFrequencies defaults) ∧
    Applied .measure (sets empty calls) defaults ((play calls).measureFrequencies defaults) ∧
    ∀ others : List Call,
      ((∀ w, asked (.drive w) calls = asked (.drive w) others) →
        (play calls).qubitFrequencies defaults = (play others).qubitFrequencies defaults) ∧
      ((∀ w, asked (.measure w) calls = asked (.measure w) others) →
        (play calls).measureFrequencies defaults = (play others).measureFrequencies defaults) := by
  refine ⟨?_, ?_, fun others => ⟨fun same => ?_, fun same => ?_⟩⟩
  · rw [qubitFrequencies, frequencies_play]
    exact applied .drive _ _
  · rw [measureFrequencies, frequencies_play]
    exact applied .measure _ _
  · exact frequencies_play_congr same defaults
  · exact frequencies_play_congr same defaults

/-- A drive channel that is set twice, with a call in between that fails and one for a measure
channel: its last frequency counts, and it is out of range for a single default. -/
theorem overrides_pointwise_retuned :
    let calls : List Call := [⟨true, .drive 1, 5.1e9⟩, ⟨false, .drive 1, -1⟩,
      ⟨true, .measure 0, 6.9e9⟩, ⟨false, .acquire 1, 5.3e9⟩, ⟨false, .drive 1, 5.2e9⟩]
    let others : List Call := [⟨false, .drive 1, 5.1e9⟩, ⟨true, .drive 1, -1⟩,
      ⟨true, .drive 1, 5.2e9⟩]
    (∃ fs, (play calls).qubitFrequencies [4.9e9, 5.0e9] = .ok fs ∧ fs.length = 2 ∧
      fs[1]? = some 5.2e9) ∧
    (play calls).qubitFrequencies [4.9e9, 5.0e9] = (play others).qubitFrequencies [4.9e9, 5.0e9] ∧
    (play calls).qubitFrequencies [4.9e9] = .error (.oscillatorOutOfRange "d1" 1) ∧
    ∃ w : UInt32, IsLeast {i | (lastSet .drive i (sets empty calls)).isSome ∧ 1 ≤ i} w.toNat := by
  intro calls others
  obtain ⟨drive, -, same⟩ := overrides_pointwise calls [4.9e9, 5.0e9]
  have made : (play calls).qubitFrequencies [4.9e9, 5.0e9] = .ok [4.9e9, 5.2e9] := rfl
  have refused : (play calls).qubitFrequencies [4.9e9] = .error (.oscillatorOutOfRange "d1" 1) :=
    rfl
  obtain ⟨w, least, -⟩ := ((overrides_pointwise calls [4.9e9]).1.fault_iff _).1 refused
  refine ⟨⟨_, made, drive.length_eq _ made, drive.entry _ made 1 5.0e9 rfl⟩, ?_, refused, w, least⟩
  refine (same others).1 fun w => ?_
  by_cases here : w = 1
  · subst here
    rfl
  · simp [calls, others, asked, Ne.symm here]

end QuantumControl.Pulse.LoConfig
