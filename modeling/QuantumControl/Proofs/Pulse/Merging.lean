import QuantumControl.Proofs.Pulse.Occupancy

/-!
# Occupancies that are merged and moved

Of the ways to come to an occupancy, `Occupancy.Reachable`, only one looks at every
slot: the others move all slots alike, or take the slots of two occupancies over
because no slot of one clashes with a slot of the other.  All of them lead to sound
occupancies, so that the two ways to merge agree: checking every slot again refuses
what a look at one side's table refuses, and leaves the same slots and intervals.
-/

namespace QuantumControl.Pulse.Occupancy

variable {γ : Type}

/-! ## The first clash -/

/-- A list that has an element with a property has a first one. -/
theorem exists_first {α : Type} {p : α → Prop} {l : List α} (h : ∃ a ∈ l, p a) :
    ∃ before a after, l = before ++ a :: after ∧ p a ∧ ∀ b ∈ before, ¬ p b := by
  classical
  obtain ⟨a, ha, hp⟩ := h
  obtain ⟨b, before, after, clear, hb, split, -⟩ :=
    List.exists_of_eraseP (p := fun a => decide (p a)) ha (decide_eq_true hp)
  exact ⟨before, b, after, split, of_decide_eq_true hb,
    fun c hc hp => clear c hc (decide_eq_true hp)⟩

/-- The first slot of `b` that clashes with one of `a`, and the first one of `a` that it clashes
with. -/
structure FirstClash (a b : List (Timeslot γ)) (s t : Timeslot γ) : Prop where
  clash : s.Clash t
  new : ∃ before after, b = before ++ t :: after ∧ ∀ u ∈ before, ∀ r ∈ a, ¬ r.Clash u
  old : ∃ before after, a = before ++ s :: after ∧ ∀ r ∈ before, ¬ r.Clash t

theorem exists_firstClash {a b : List (Timeslot γ)} (h : ∃ t ∈ b, ∃ s ∈ a, s.Clash t) :
    ∃ s t, FirstClash a b s t := by
  obtain ⟨before, t, after, new, met, clear⟩ := exists_first h
  obtain ⟨before', s, after', old, clash, clear'⟩ := exists_first met
  refine ⟨s, t, clash, ⟨before, after, new, fun u hu r hr meets => ?_⟩,
    ⟨before', after', old, clear'⟩⟩
  exact clear u hu ⟨r, hr, meets⟩

variable [DecidableEq γ]

/-! ## Reachable occupancies -/

/-- The occupancies that come about from lists of slots by merging and moving. -/
inductive Reachable : Occupancy γ → Prop
  | empty : Reachable empty
  | ofSlots {slots : List (Timeslot γ)} {o : Occupancy γ} (h : ofSlots slots = .ok o) :
      Reachable o
  | merged {a b o : Occupancy γ} (ha : Reachable a) (hb : Reachable b)
      (h : a.merged b = .ok o) : Reachable o
  | mergedUnchecked {a b : Occupancy γ} (ha : Reachable a) (hb : Reachable b)
      (h : a.mergeableWith b) : Reachable (a.mergedUnchecked b)
  | shifted {a o : Occupancy γ} {time : Time} (ha : Reachable a) (h : a.shifted time = .ok o) :
      Reachable o

/-- What is moved is moved as a whole. -/
theorem Sound.shifted_eq_ok {a o : Occupancy γ} (ha : a.Sound) {time : Time}
    (h : a.shifted time = .ok o) :
    0 ≤ time.val ∧ (∀ slot ∈ a.slots, slot.interval.CanMove time) ∧ o = a.moved time := by
  rw [ha.shifted_eq] at h
  split at h
  · cases h
  · next later =>
      split at h
      · next all => exact ⟨Int.not_lt.1 later, all, (Except.ok.inj h).symm⟩
      · cases h

theorem Sound.shifted {a o : Occupancy γ} (ha : a.Sound) {time : Time}
    (h : a.shifted time = .ok o) : o.Sound := by
  obtain ⟨-, all, rfl⟩ := ha.shifted_eq_ok h
  exact ha.moved all

/-- Each way to come to an occupancy keeps it sound. -/
theorem Reachable.sound {o : Occupancy γ} (h : o.Reachable) : o.Sound := by
  induction h with
  | empty => exact sound_empty
  | ofSlots h => exact (sound_ofSlots h).1
  | merged _ _ h => exact (sound_ofSlots h).1
  | mergedUnchecked _ _ h iha ihb => exact iha.mergedUnchecked ihb h
  | shifted _ h ih => exact ih.shifted h

theorem Indexes.contains_iff {table : Table γ (List Interval)} {slots : List (Timeslot γ)}
    (h : Indexes table slots) (channel : γ) :
    table.contains channel ↔ ∃ slot ∈ slots, slot.channel = channel := by
  rw [Table.contains, h channel]
  constructor
  · intro found
    split at found
    · cases found
    · next taken =>
        obtain ⟨i, hi⟩ := List.exists_mem_of_ne_nil _ taken
        obtain ⟨slot, mem, same, -⟩ := mem_on.1 hi
        exact ⟨slot, mem, same⟩
  · rintro ⟨slot, mem, same⟩
    have taken := mem_on.2 ⟨slot, mem, same, rfl⟩
    rw [if_neg (List.ne_nil_of_mem taken)]
    rfl

/-- A symmetric relation holds between the elements of a list if it holds at any two positions. -/
theorem pairwise_iff_of_ne {α : Type} {r : α → α → Prop} (symm : ∀ {a b}, r a b → r b a)
    {l : List α} :
    l.Pairwise r ↔ ∀ i j (hi : i < l.length) (hj : j < l.length), i ≠ j → r l[i] l[j] := by
  rw [List.pairwise_iff_getElem]
  constructor
  · intro later i j hi hj ne
    rcases Nat.lt_or_gt_of_ne ne with before | after
    · exact later i j hi hj before
    · exact symm (later j i hj hi after)
  · intro all i j hi hj before
    exact all i j hi hj (Nat.ne_of_lt before)

/-- Slots at different positions do not clash, whichever comes first. -/
theorem Sound.apart_getElem {o : Occupancy γ} (h : o.Sound) {i j : Nat}
    (hi : i < o.slots.length) (hj : j < o.slots.length) (ne : i ≠ j) :
    ¬ o.slots[i].Clash o.slots[j] :=
  (pairwise_iff_of_ne fun apart clash => apart clash.symm).1 h.apart i j hi hj ne

/-- In every reachable occupancy the table has exactly the channels of the slots, each with the
intervals of its slots in order; every interval ends in range; and no two slots at different
positions overlap on one channel. -/
theorem representation {o : Occupancy γ} (h : o.Reachable) :
    (∀ channel, o.intervals channel =
      (o.slots.filter (·.channel = channel)).map (·.interval)) ∧
    (∀ channel, o.table.contains channel ↔ ∃ slot ∈ o.slots, slot.channel = channel) ∧
    (∀ slot ∈ o.slots,
      slot.interval.start.val + slot.interval.duration.toNat ≤ 9223372036854775807) ∧
    ∀ i j (hi : i < o.slots.length) (hj : j < o.slots.length), i ≠ j →
      o.slots[i].channel = o.slots[j].channel →
      ¬ o.slots[i].interval.Overlaps o.slots[j].interval := by
  have sound := h.sound
  refine ⟨sound.indexes.getD, sound.indexes.contains_iff, fun slot mem => ?_, ?_⟩
  · exact Int.le_of_lt_add_one (Interval.inRange_iff.1 (sound.inRange slot mem))
  · intro i j hi hj ne same overlap
    exact sound.apart_getElem hi hj ne ⟨same, overlap⟩

/-- A pulse on one channel, and a shorter window on another. -/
def readout : List (Timeslot Nat) := [⟨⟨.zero, 10⟩, 0⟩, ⟨⟨.zero, 4⟩, 1⟩]

theorem representation_of_consecutive_readouts :
    ∃ first second : Occupancy Nat,
      ofSlots readout = .ok first ∧ first.shifted (.ofSamples 10) = .ok second ∧
      first.mergeableWith second ∧
      let both := first.mergedUnchecked second
      both.Reachable ∧ both.intervals 1 = [⟨.zero, 4⟩, ⟨.ofSamples 10, 4⟩] ∧
        (both.table.contains 2 ↔ ∃ slot ∈ both.slots, slot.channel = 2) ∧
        ∀ i j (hi : i < both.slots.length) (hj : j < both.slots.length), i ≠ j →
          both.slots[i].channel = both.slots[j].channel →
          ¬ both.slots[i].interval.Overlaps both.slots[j].interval := by
  refine ⟨_, _, rfl, rfl, rfl, ?_⟩
  intro both
  have first := @Reachable.ofSlots Nat _ readout _ rfl
  have second := @Reachable.shifted Nat _ _ _ (.ofSamples 10) first rfl
  have reachable : both.Reachable := .mergedUnchecked first second rfl
  obtain ⟨taken, channels, -, apart⟩ := representation reachable
  exact ⟨reachable, taken 1, channels 2, apart⟩

/-! ## Merging -/

/-- A slot in range that clashes is refused, together with the first one that it clashes with. -/
theorem accept_eq_error {table : Table γ (List Interval)}
    {slots before after : List (Timeslot γ)} {s t : Timeslot γ} (h : Indexes table slots)
    (inside : t.interval.inRange) (old : slots = before ++ s :: after) (clash : s.Clash t)
    (clear : ∀ r ∈ before, ¬ r.Clash t) :
    accept table t = .error (.overlappingTimeslots s.interval t.interval) := by
  have found : ((table.get? t.channel).getD []).find? (·.Overlaps t.interval) =
      some s.interval := by
    rw [h.getD, old, on_append, ← List.singleton_append, on_append, on_singleton, if_pos clash.1]
    refine List.find?_eq_some_iff_append.2
      ⟨decide_eq_true clash.2, on before t.channel, on after t.channel, rfl, fun i hi => ?_⟩
    obtain ⟨r, hr, same, rfl⟩ := mem_on.1 hi
    simpa using fun overlap => clear r hr ⟨same, overlap⟩
  unfold accept
  rw [if_neg (by simp [inside]), found]

/-- The first slot that is refused decides the fault of a list of slots. -/
theorem ofSlots_eq_error {slots more : List (Timeslot γ)} {t : Timeslot γ} {o : Occupancy γ}
    {fault : PulseError} (accepted : ofSlots slots = .ok o)
    (refused : accept o.table t = .error fault) :
    ofSlots (slots ++ t :: more) = .error fault := by
  unfold ofSlots at accepted ⊢
  rw [List.foldlM_append]
  cases run : slots.foldlM accept Table.empty with
  | error other =>
      rw [run] at accepted
      cases accepted
  | ok table =>
      rw [run] at accepted
      obtain rfl := Except.ok.inj accepted
      show ((t :: more).foldlM accept table).map _ = _
      rw [List.foldlM_cons, refused]
      rfl

/-- Merging with a check of every slot succeeds if and only if the two are mergeable. -/
theorem Sound.merged_eq_ok_iff {a b o : Occupancy γ} (ha : a.Sound) (hb : b.Sound) :
    a.merged b = .ok o ↔
      a.mergeableWith b ∧
        o = ⟨a.slots ++ b.slots, (a.slots ++ b.slots).foldl Occupancy.enter Table.empty⟩ := by
  rw [merged, ofSlots_eq_ok_iff, mergeableWith_iff ha.indexes, List.pairwise_append,
    List.forall_mem_append]
  constructor
  · rintro ⟨rfl, -, -, -, clear⟩
    exact ⟨clear, rfl⟩
  · rintro ⟨clear, rfl⟩
    exact ⟨rfl, ⟨ha.inRange, hb.inRange⟩, ha.apart, hb.apart, clear⟩

/-- The slots of `b` before the clash are accepted, and the one that clashes is refused. -/
theorem Sound.merged_eq_error {a b : Occupancy γ} (ha : a.Sound) (hb : b.Sound)
    {s t : Timeslot γ} (h : FirstClash a.slots b.slots s t) :
    a.merged b = .error (.overlappingTimeslots s.interval t.interval) := by
  obtain ⟨before, after, new, clear⟩ := h.new
  obtain ⟨before', after', old, clear'⟩ := h.old
  have inRange := hb.inRange
  have apart := hb.apart
  rw [new, List.forall_mem_append] at inRange
  rw [new, List.pairwise_append] at apart
  have accepted : ofSlots (a.slots ++ before) = .ok _ := ofSlots_eq_ok_iff.2
    ⟨rfl, List.forall_mem_append.2 ⟨ha.inRange, inRange.1⟩,
      List.pairwise_append.2 ⟨ha.apart, apart.1, fun r hr u hu => clear u hu r hr⟩⟩
  have split : a.slots ++ before = before' ++ s :: (after' ++ before) := by
    rw [old, List.append_assoc, List.cons_append]
  rw [merged, new, ← List.append_assoc]
  exact ofSlots_eq_error accepted (accept_eq_error (sound_ofSlots accepted).1.indexes
    (inRange.2 t List.mem_cons_self) split h.clash clear')

theorem mergeableWith_eq_false_iff {a b : Occupancy γ} (ha : Indexes a.table a.slots) :
    a.mergeableWith b = false ↔ ∃ t ∈ b.slots, ∃ s ∈ a.slots, s.Clash t := by
  rw [← Bool.not_eq_true, mergeableWith_iff ha]
  constructor
  · intro met
    simp only [Classical.not_forall, Classical.not_not] at met
    obtain ⟨s, hs, t, ht, clash⟩ := met
    exact ⟨t, ht, s, hs, clash⟩
  · rintro ⟨t, ht, s, hs, clash⟩ clear
    exact clear s hs t ht clash

/-- Mergeability does not depend on the side whose table is looked at. -/
theorem Sound.mergeableWith_comm {a b : Occupancy γ} (ha : a.Sound) (hb : b.Sound) :
    a.mergeableWith b = b.mergeableWith a := by
  rw [Bool.eq_iff_iff, mergeableWith_iff ha.indexes, mergeableWith_iff hb.indexes]
  constructor
  · exact fun clear t ht s hs clash => clear s hs t ht clash.symm
  · exact fun clear s hs t ht clash => clear t ht s hs clash.symm

/-- Of two reachable occupancies each is mergeable with the other, or neither is.  If they are,
both ways to merge leave the same slots and, for every channel, the same intervals; if not, the
check of every slot refuses the first slot of the second that clashes with one of the first,
against the first one it clashes with. -/
theorem merged_exact {a b : Occupancy γ} (ha : a.Reachable) (hb : b.Reachable) :
    a.mergeableWith b = b.mergeableWith a ∧
    ((∃ o, a.merged b = .ok o) ↔ a.mergeableWith b) ∧
    (a.mergeableWith b → ∃ o, a.merged b = .ok o ∧
      (a.mergedUnchecked b).slots = o.slots ∧
        ∀ channel, (a.mergedUnchecked b).intervals channel = o.intervals channel) ∧
    (a.mergeableWith b = false → ∃ s t, FirstClash a.slots b.slots s t ∧
      a.merged b = .error (.overlappingTimeslots s.interval t.interval)) := by
  have soundA := ha.sound
  have soundB := hb.sound
  refine ⟨soundA.mergeableWith_comm soundB, ⟨?_, ?_⟩, ?_, ?_⟩
  · rintro ⟨o, h⟩
    exact ((soundA.merged_eq_ok_iff soundB).1 h).1
  · intro h
    exact ⟨_, (soundA.merged_eq_ok_iff soundB).2 ⟨h, rfl⟩⟩
  · intro h
    have checked := (soundA.merged_eq_ok_iff soundB).2 ⟨h, rfl⟩
    have unchecked := soundA.mergedUnchecked soundB h
    refine ⟨_, checked, rfl, fun channel => ?_⟩
    rw [intervals, intervals, unchecked.indexes.getD, (sound_ofSlots checked).1.indexes.getD,
      slots_mergedUnchecked]
  · intro h
    obtain ⟨s, t, first⟩ := exists_firstClash ((mergeableWith_eq_false_iff soundA.indexes).1 h)
    exact ⟨s, t, first, soundA.merged_eq_error soundB first⟩

/-- An instant within the shorter window of a readout, which clashes with it. -/
def instants : List (Timeslot Nat) := [⟨⟨.ofSamples 10, 0⟩, 0⟩, ⟨⟨.ofSamples 3, 0⟩, 1⟩]

theorem merged_readout_instants :
    ∃ a b : Occupancy Nat, ofSlots readout = .ok a ∧ ofSlots instants = .ok b ∧
      a.Reachable ∧ b.Reachable ∧ b.mergeableWith a = false ∧
      ∃ s t, FirstClash a.slots b.slots s t ∧
        s.interval = ⟨.zero, 4⟩ ∧ t.interval = ⟨.ofSamples 3, 0⟩ := by
  refine ⟨_, _, rfl, rfl, ?_⟩
  have ha := @Reachable.ofSlots Nat _ readout _ rfl
  have hb := @Reachable.ofSlots Nat _ instants _ rfl
  obtain ⟨same, -, -, refused⟩ := merged_exact ha hb
  obtain ⟨s, t, first, fault⟩ := refused rfl
  obtain ⟨old, new⟩ := PulseError.overlappingTimeslots.inj (Except.error.inj fault)
  exact ⟨ha, hb, same.symm, s, t, first, old.symm, new.symm⟩

end QuantumControl.Pulse.Occupancy
