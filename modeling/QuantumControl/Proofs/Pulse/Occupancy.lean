import QuantumControl.Pulse.Occupancy

/-!
# What an occupancy knows about its slots

An occupancy keeps a list of slots and a table of intervals, and every operation
updates the two separately.  `Occupancy.Indexes` says that they agree: the table
has, under each channel that occurs, the intervals of its slots in the order of
the list, and nothing under any other channel.

Times within an interval are exact where an interval is in range; the lemmas at
the start state overlaps and moves in exact integers, so that nothing later has
to look at ends that stop at the last instant.
-/

namespace QuantumControl.Pulse

/-! ## Intervals in exact integers -/

namespace Interval

theorem inRange_iff {i : Interval} :
    i.inRange ↔ i.start.val + i.duration.toNat < 9223372036854775808 := Time.reaches_iff

theorem stop_val {i : Interval} (h : i.inRange) :
    i.stop.val = i.start.val + i.duration.toNat := Time.later_val h

theorem overlaps_iff_val {i j : Interval} :
    i.Overlaps j ↔ i.start.val < j.stop.val ∧ j.start.val < i.stop.val := by
  rw [Overlaps, Time.lt_iff_val, Time.lt_iff_val]

/-- Intervals in range overlap if each starts before the exact end of the other. -/
theorem overlaps_iff {i j : Interval} (hi : i.inRange) (hj : j.inRange) :
    i.Overlaps j ↔ i.start.val < j.start.val + j.duration.toNat ∧
      j.start.val < i.start.val + i.duration.toNat := by
  rw [overlaps_iff_val, stop_val hi, stop_val hj]

/-- The interval moved by a time, as far as the range of times allows. -/
def moved (i : Interval) (time : Time) : Interval := ⟨i.start.addClamped time, i.duration⟩

/-- The moved interval starts and ends within the range of times. -/
def CanMove (i : Interval) (time : Time) : Prop :=
  -9223372036854775808 ≤ i.start.val + time.val ∧
    i.start.val + time.val + i.duration.toNat < 9223372036854775808

instance (i : Interval) (time : Time) : Decidable (i.CanMove time) :=
  inferInstanceAs (Decidable (_ ∧ _))

theorem moved_start {i : Interval} {time : Time} (h : i.CanMove time) :
    (i.moved time).start.val = i.start.val + time.val :=
  Time.clamp_val_of_range h.1 (by have := h.2; omega)

@[simp] theorem moved_duration (i : Interval) (time : Time) :
    (i.moved time).duration = i.duration := rfl

theorem inRange_moved {i : Interval} {time : Time} (h : i.CanMove time) :
    (i.moved time).inRange := by
  rw [inRange_iff, moved_start h]
  exact h.2

@[simp] theorem moved_zero (i : Interval) : i.moved Time.zero = i := by
  simp [moved, Time.addClamped]

/-- Moving two intervals by the same time makes them overlap no more and no less. -/
theorem overlaps_moved {i j : Interval} {time : Time} (hi : i.inRange) (hj : j.inRange)
    (mi : i.CanMove time) (mj : j.CanMove time) :
    (i.moved time).Overlaps (j.moved time) ↔ i.Overlaps j := by
  rw [overlaps_iff (inRange_moved mi) (inRange_moved mj), overlaps_iff hi hj, moved_start mi,
    moved_start mj, moved_duration, moved_duration]
  omega

theorem shifted?_eq (i : Interval) (time : Time) :
    i.shifted? time = if i.CanMove time then some (i.moved time) else none := by
  split
  · next h => exact shifted?_eq_some_iff.2 ⟨moved_start h, rfl, inRange_moved h⟩
  · next h =>
      cases moves : i.shifted? time with
      | none => rfl
      | some j =>
          obtain ⟨start, duration, inside⟩ := shifted?_eq_some_iff.1 moves
          rw [inRange_iff, start, duration] at inside
          exact absurd ⟨start ▸ j.start.lower, inside⟩ h

end Interval

namespace Timeslot

variable {γ : Type}

/-- The slot moved by a time. -/
def moved (s : Timeslot γ) (time : Time) : Timeslot γ := ⟨s.interval.moved time, s.channel⟩

@[simp] theorem moved_interval (s : Timeslot γ) (time : Time) :
    (s.moved time).interval = s.interval.moved time := rfl

theorem shifted?_eq (s : Timeslot γ) (time : Time) :
    s.shifted? time = if s.interval.CanMove time then some (s.moved time) else none := by
  rw [shifted?, Interval.shifted?_eq]
  split <;> rfl

/-- Two slots that take the same channel at the same time. -/
def Clash (s t : Timeslot γ) : Prop := s.channel = t.channel ∧ s.interval.Overlaps t.interval

theorem Clash.symm {s t : Timeslot γ} (h : s.Clash t) : t.Clash s := ⟨h.1.symm, h.2.symm⟩

/-- Moving two slots by the same time makes them clash no more and no less. -/
theorem clash_moved {s t : Timeslot γ} {time : Time} (hs : s.interval.inRange)
    (ht : t.interval.inRange) (ms : s.interval.CanMove time) (mt : t.interval.CanMove time) :
    (s.moved time).Clash (t.moved time) ↔ s.Clash t :=
  and_congr_right fun _ => Interval.overlaps_moved hs ht ms mt

end Timeslot

/-- Mapping a list by a function that is partial by a test. -/
theorem mapM_guard {α β : Type} (p : α → Prop) [DecidablePred p] (f : α → β) (l : List α) :
    l.mapM (fun a => if p a then some (f a) else none) =
      if ∀ a ∈ l, p a then some (l.map f) else none := by
  induction l with
  | nil => simp
  | cons a l ih =>
      rw [List.mapM_cons, ih]
      by_cases ha : p a
      · by_cases hl : ∀ b ∈ l, p b
        · rw [if_pos ha, if_pos hl, if_pos (List.forall_mem_cons.2 ⟨ha, hl⟩)]
          rfl
        · rw [if_pos ha, if_neg hl, if_neg fun all => hl (List.forall_mem_cons.1 all).2]
          rfl
      · rw [if_neg ha, if_neg fun all => ha (List.forall_mem_cons.1 all).1]
        rfl

/-- Two steps succeed if the first one does, and then the second one from its result. -/
theorem bind_eq_ok_iff {ε α β : Type} {x : Except ε α} {f : α → Except ε β} {b : β} :
    (x >>= f) = .ok b ↔ ∃ a, x = .ok a ∧ f a = .ok b := by
  cases x with
  | error fault => exact ⟨(nomatch ·), fun ⟨_, failed, _⟩ => nomatch failed⟩
  | ok a => exact ⟨fun h => ⟨a, rfl, h⟩, fun ⟨_, same, h⟩ => Except.ok.inj same ▸ h⟩

namespace Occupancy

variable {γ : Type}

/-! ## Moving lists and tables -/

/-- The occupancy with every slot moved by a time. -/
def moved (o : Occupancy γ) (time : Time) : Occupancy γ where
  slots := o.slots.map (·.moved time)
  table :=
    { entries := o.table.entries.map fun e => (e.1, e.2.map (·.moved time))
      distinct := by simpa [Function.comp_def] using o.table.distinct }

@[simp] theorem slots_moved (o : Occupancy γ) (time : Time) :
    (o.moved time).slots = o.slots.map (·.moved time) := rfl

theorem moved_zero (o : Occupancy γ) : o.moved Time.zero = o := by
  obtain ⟨slots, entries, distinct⟩ := o
  simp [moved, Timeslot.moved]

theorem shiftTable_eq (time : Time) (es : List (γ × List Interval)) :
    shiftTable time es =
      if ∀ e ∈ es, ∀ i ∈ e.2, i.CanMove time then
        some (es.map fun e => (e.1, e.2.map (·.moved time)))
      else none := by
  induction es with
  | nil => rfl
  | cons e es ih =>
      rw [shiftTable, ih, funext fun i : Interval => i.shifted?_eq time, mapM_guard]
      by_cases he : ∀ i ∈ e.2, i.CanMove time
      · by_cases hes : ∀ e ∈ es, ∀ i ∈ e.2, i.CanMove time
        · rw [if_pos he, if_pos hes, if_pos (List.forall_mem_cons.2 ⟨he, hes⟩)]
          rfl
        · rw [if_pos he, if_neg hes, if_neg fun all => hes (List.forall_mem_cons.1 all).2]
          rfl
      · rw [if_neg he, if_neg fun all => he (List.forall_mem_cons.1 all).1]
        rfl

variable [DecidableEq γ]

/-! ## The table of a list of slots -/

/-- The intervals of the slots on a channel, in order. -/
def on (slots : List (Timeslot γ)) (channel : γ) : List Interval :=
  (slots.filter (·.channel = channel)).map (·.interval)

theorem on_append (slots more : List (Timeslot γ)) (channel : γ) :
    on (slots ++ more) channel = on slots channel ++ on more channel := by
  simp [on]

theorem on_singleton (slot : Timeslot γ) (channel : γ) :
    on [slot] channel = if slot.channel = channel then [slot.interval] else [] := by
  by_cases h : slot.channel = channel <;> simp [on, h]

theorem mem_on {slots : List (Timeslot γ)} {channel : γ} {i : Interval} :
    i ∈ on slots channel ↔ ∃ slot ∈ slots, slot.channel = channel ∧ slot.interval = i := by
  simp [on, and_assoc]

/-- An interval that is taken on listed channels is on each as often as this is listed. -/
theorem on_map_mk (interval : Interval) (channels : List γ) (channel : γ) :
    on (channels.map fun c => ⟨interval, c⟩) channel =
      List.replicate (channels.count channel) interval := by
  refine List.eq_replicate_iff.2 ⟨?_, fun i mem => ?_⟩
  · rw [on, List.length_map, ← List.countP_eq_length_filter, List.countP_map]
    rfl
  · obtain ⟨slot, here, -, rfl⟩ := mem_on.1 mem
    obtain ⟨c, -, rfl⟩ := List.mem_map.1 here
    rfl

/-- The table has exactly the channels of the slots, each with its intervals. -/
def Indexes (table : Table γ (List Interval)) (slots : List (Timeslot γ)) : Prop :=
  ∀ channel, table.get? channel =
    if on slots channel = [] then none else some (on slots channel)

theorem Indexes.getD {table : Table γ (List Interval)} {slots : List (Timeslot γ)}
    (h : Indexes table slots) (channel : γ) :
    (table.get? channel).getD [] = on slots channel := by
  rw [h channel]
  split
  · next empty => rw [empty]; rfl
  · rfl

theorem indexes_empty : Indexes (Table.empty : Table γ (List Interval)) [] := fun _ => rfl

/-- Entering a slot keeps table and list in agreement. -/
theorem Indexes.enter {table : Table γ (List Interval)} {slots : List (Timeslot γ)}
    (h : Indexes table slots) (slot : Timeslot γ) :
    Indexes (enter table slot) (slots ++ [slot]) := by
  intro channel
  rw [Occupancy.enter, Table.get?_alter, on_append, on_singleton]
  by_cases same : channel = slot.channel
  · rw [if_pos same, h.getD, if_pos same.symm, same]
    simp
  · rw [if_neg same, if_neg (Ne.symm same), List.append_nil]
    exact h channel

theorem Indexes.foldl_enter {table : Table γ (List Interval)} {slots : List (Timeslot γ)}
    (h : Indexes table slots) (more : List (Timeslot γ)) :
    Indexes (more.foldl Occupancy.enter table) (slots ++ more) := by
  induction more generalizing table slots with
  | nil => simpa using h
  | cons slot more ih => simpa using ih (h.enter slot)

/-- An occupancy whose table and list agree, and whose slots are in range and apart. -/
structure Sound (o : Occupancy γ) : Prop where
  indexes : Indexes o.table o.slots
  inRange : ∀ slot ∈ o.slots, slot.interval.inRange
  apart : o.slots.Pairwise fun s t => ¬ s.Clash t

theorem Sound.intervals_eq {o : Occupancy γ} (h : o.Sound) (channel : γ) :
    o.intervals channel = on o.slots channel :=
  h.indexes.getD channel

theorem sound_empty : (empty : Occupancy γ).Sound :=
  ⟨indexes_empty, List.forall_mem_nil _, List.Pairwise.nil⟩

/-! ## Admission -/

/-- A slot is accepted if it is in range and clashes with none that the table has. -/
theorem accept_eq_ok_iff {table t : Table γ (List Interval)} {slots : List (Timeslot γ)}
    (h : Indexes table slots) {slot : Timeslot γ} :
    accept table slot = .ok t ↔
      t = Occupancy.enter table slot ∧ slot.interval.inRange ∧ ∀ s ∈ slots, ¬ s.Clash slot := by
  have clear : ((table.get? slot.channel).getD []).find? (·.Overlaps slot.interval) = none ↔
      ∀ s ∈ slots, ¬ s.Clash slot := by
    rw [h.getD, List.find?_eq_none]
    constructor
    · intro all s hs clash
      exact all s.interval (mem_on.2 ⟨s, hs, clash.1, rfl⟩) (decide_eq_true clash.2)
    · intro all i hi overlap
      obtain ⟨s, hs, same, rfl⟩ := mem_on.1 hi
      exact all s hs ⟨same, of_decide_eq_true overlap⟩
  unfold accept
  by_cases inside : slot.interval.inRange
  · rw [if_neg (by simp [inside])]
    split
    · next taken found =>
        refine ⟨(nomatch ·), fun ⟨_, _, all⟩ => ?_⟩
        rw [clear.2 all] at found
        cases found
    · next found =>
        refine ⟨fun e => ?_, fun ⟨e, _⟩ => e ▸ rfl⟩
        cases e
        exact ⟨rfl, inside, clear.1 found⟩
  · rw [if_pos (by simp [inside])]
    exact ⟨(nomatch ·), fun ⟨_, i, _⟩ => absurd i inside⟩

/-- Slots are accepted one after the other if all are in range and none clashes with an
earlier one. -/
theorem foldlM_accept_eq_ok_iff {table t : Table γ (List Interval)} {slots : List (Timeslot γ)}
    (h : Indexes table slots) {more : List (Timeslot γ)} :
    more.foldlM accept table = .ok t ↔
      t = more.foldl Occupancy.enter table ∧ (∀ slot ∈ more, slot.interval.inRange) ∧
        (∀ s ∈ slots, ∀ slot ∈ more, ¬ s.Clash slot) ∧
        more.Pairwise fun s t => ¬ s.Clash t := by
  induction more generalizing table slots with
  | nil =>
      refine ⟨fun e => ?_, fun e => e.1 ▸ rfl⟩
      cases e
      exact ⟨rfl, by simp, by simp, List.Pairwise.nil⟩
  | cons slot more ih =>
      rw [List.foldlM_cons, List.pairwise_cons]
      constructor
      · intro e
        cases first : accept table slot with
        | error fault =>
            rw [first] at e
            cases e
        | ok entered =>
            rw [first] at e
            obtain ⟨rfl, inside, clear⟩ := (accept_eq_ok_iff h).1 first
            obtain ⟨rfl, insides, clears, apart⟩ := (ih (h.enter slot)).1 e
            refine ⟨rfl, List.forall_mem_cons.2 ⟨inside, insides⟩, ?_, ?_, apart⟩
            · intro s hs
              exact List.forall_mem_cons.2
                ⟨clear s hs, clears s (List.mem_append_left _ hs)⟩
            · exact clears slot (List.mem_append_right _ (List.mem_singleton_self _))
      · rintro ⟨rfl, insides, clears, first, apart⟩
        have entered : accept table slot = .ok (Occupancy.enter table slot) :=
          (accept_eq_ok_iff h).2 ⟨rfl, insides slot List.mem_cons_self,
            fun s hs => clears s hs slot List.mem_cons_self⟩
        rw [entered]
        refine (ih (h.enter slot)).2 ⟨rfl, fun s hs => insides s (List.mem_cons_of_mem _ hs),
          fun s hs => ?_, apart⟩
        rcases List.mem_append.1 hs with old | new
        · exact fun t ht => clears s old t (List.mem_cons_of_mem _ ht)
        · exact (List.mem_singleton.1 new) ▸ first

theorem ofSlots_eq_ok_iff {slots : List (Timeslot γ)} {o : Occupancy γ} :
    ofSlots slots = .ok o ↔
      o = ⟨slots, slots.foldl Occupancy.enter Table.empty⟩ ∧
        (∀ slot ∈ slots, slot.interval.inRange) ∧ slots.Pairwise fun s t => ¬ s.Clash t := by
  unfold ofSlots
  constructor
  · intro e
    cases run : slots.foldlM accept Table.empty with
    | error fault =>
        rw [run] at e
        cases e
    | ok table =>
        rw [run] at e
        cases e
        obtain ⟨rfl, inside, -, apart⟩ := (foldlM_accept_eq_ok_iff indexes_empty).1 run
        exact ⟨rfl, inside, apart⟩
  · rintro ⟨rfl, inside, apart⟩
    rw [(foldlM_accept_eq_ok_iff indexes_empty).2 ⟨rfl, inside, by simp, apart⟩]
    rfl

/-- What is made from a list of slots is sound and has these slots. -/
theorem sound_ofSlots {slots : List (Timeslot γ)} {o : Occupancy γ} (h : ofSlots slots = .ok o) :
    o.Sound ∧ o.slots = slots := by
  obtain ⟨rfl, inside, apart⟩ := ofSlots_eq_ok_iff.1 h
  exact ⟨⟨indexes_empty.foldl_enter slots, inside, apart⟩, rfl⟩

/-! ## Moving -/

theorem on_map_moved (slots : List (Timeslot γ)) (time : Time) (channel : γ) :
    on (slots.map (·.moved time)) channel = (on slots channel).map (·.moved time) := by
  rw [on, List.filter_map, List.map_map, on, List.map_map]
  rfl

/-- If the slots can move, so can the intervals of the table. -/
theorem Indexes.canMove {o : Occupancy γ} (h : Indexes o.table o.slots) {time : Time}
    (all : ∀ slot ∈ o.slots, slot.interval.CanMove time) :
    ∀ e ∈ o.table.entries, ∀ i ∈ e.2, i.CanMove time := by
  intro e he i hi
  have entry := Table.get?_of_mem he
  rw [h e.1] at entry
  split at entry
  · cases entry
  · rw [← Option.some.inj entry] at hi
    obtain ⟨slot, hslot, -, rfl⟩ := mem_on.1 hi
    exact all slot hslot

/-- A sound occupancy moves to a later time as a whole, or not at all. -/
theorem Sound.shifted_eq {o : Occupancy γ} (h : o.Sound) (time : Time) :
    o.shifted time =
      if time.val < 0 then .error (.negativeShift time)
      else if ∀ slot ∈ o.slots, slot.interval.CanMove time then .ok (o.moved time)
      else .error (.timeOverflow time) := by
  unfold Occupancy.shifted
  by_cases negative : time.val < 0
  · rw [if_pos negative, if_pos (Time.lt_iff_val.2 negative)]
  rw [if_neg negative, if_neg fun e => negative (Time.lt_iff_val.1 e)]
  by_cases still : time = Time.zero
  · have all : ∀ slot ∈ o.slots, slot.interval.CanMove Time.zero := by
      intro slot hslot
      have inside := Interval.inRange_iff.1 (h.inRange slot hslot)
      have := slot.interval.start.lower
      exact ⟨by simpa using this, by simpa using inside⟩
    subst still
    rw [if_pos rfl, if_pos all, moved_zero]
  rw [if_neg still, funext fun slot : Timeslot γ => slot.shifted?_eq time, mapM_guard]
  by_cases all : ∀ slot ∈ o.slots, slot.interval.CanMove time
  · have entries := shiftTable_eq time o.table.entries
    rw [if_pos (h.indexes.canMove all)] at entries
    rw [if_pos all, if_pos all]
    dsimp only
    split
    · next none => rw [entries] at none; cases none
    · next moved => rw [entries] at moved; cases moved; rfl
  · rw [if_neg all, if_neg all]

/-- Moving keeps an occupancy sound. -/
theorem Sound.moved {o : Occupancy γ} (h : o.Sound) {time : Time}
    (all : ∀ slot ∈ o.slots, slot.interval.CanMove time) : (o.moved time).Sound where
  indexes := by
    intro channel
    have entry : (o.moved time).table.get? channel =
        (o.table.get? channel).map fun taken => taken.map (·.moved time) :=
      Table.find_map _ channel o.table.entries
    rw [entry, h.indexes channel, slots_moved, on_map_moved]
    by_cases free : on o.slots channel = [] <;> simp [free]
  inRange := by
    intro slot hslot
    obtain ⟨s, hs, rfl⟩ := List.mem_map.1 hslot
    exact Interval.inRange_moved (all s hs)
  apart := by
    rw [slots_moved, List.pairwise_map]
    refine h.apart.imp_of_mem fun hs ht apart clash => apart ?_
    exact (Timeslot.clash_moved (h.inRange _ hs) (h.inRange _ ht) (all _ hs) (all _ ht)).1 clash

/-! ## Merging -/

/-- Occupancies are mergeable if no slot of one clashes with a slot of the other. -/
theorem mergeableWith_iff {a b : Occupancy γ} (ha : Indexes a.table a.slots) :
    a.mergeableWith b ↔ ∀ s ∈ a.slots, ∀ slot ∈ b.slots, ¬ s.Clash slot := by
  simp only [mergeableWith, intervals, ha.getD, List.all_eq_true, Bool.not_eq_true',
    decide_eq_false_iff_not]
  constructor
  · intro all s hs slot hslot clash
    exact all slot hslot s.interval (mem_on.2 ⟨s, hs, clash.1, rfl⟩) clash.2
  · intro all slot hslot i hi overlap
    obtain ⟨s, hs, same, rfl⟩ := mem_on.1 hi
    exact all s hs slot hslot ⟨same, overlap⟩

@[simp] theorem slots_mergedUnchecked (a b : Occupancy γ) :
    (a.mergedUnchecked b).slots = a.slots ++ b.slots := rfl

theorem Sound.mergedUnchecked {a b : Occupancy γ} (ha : a.Sound) (hb : b.Sound)
    (h : a.mergeableWith b) : (a.mergedUnchecked b).Sound where
  indexes := ha.indexes.foldl_enter b.slots
  inRange := List.forall_mem_append.2 ⟨ha.inRange, hb.inRange⟩
  apart := List.pairwise_append.2 ⟨ha.apart, hb.apart, (mergeableWith_iff ha.indexes).1 h⟩

end Occupancy

end QuantumControl.Pulse
