import Mathlib.Algebra.Ring.Nat
import QuantumControl.Proofs.Pulse.Stop

/-!
# Appending

Appending places an instruction at the last committed stop.  Every child that it could
meet takes a channel and is over by then, so an instruction that does not reach back before
its place meets none (`Sound.not_meets_localStop`), and only the range of times is left to
refuse it.  If it takes a channel it is now the last one to stop: so instructions that are
appended one after another lie end to end.
-/

namespace QuantumControl.Pulse

/-- A number of samples is an instant in the range of times. -/
def Time.InRange (n : Int) : Prop := -9223372036854775808 ≤ n ∧ n ≤ 9223372036854775807

instance (n : Int) : Decidable (Time.InRange n) := inferInstanceAs (Decidable (_ ∧ _))

namespace Schedule

/-- An instruction that is appended ends in range, in the schedule's own frame and in the frame
around it. -/
structure HasRoomFor (s : Schedule) (i : Instruction) : Prop where
  ends : Time.InRange (s.localStop.val + i.start.val + i.duration.toNat)
  fits : Time.InRange (s.start.val + s.localStop.val + i.start.val + i.duration.toNat)

section Placed

variable {s : Schedule} (hs : s.Sound) {i : Instruction} (hi : i.Sound)

include hs in
/-- At the last committed stop nothing is met by what starts no earlier. -/
theorem Sound.not_meets_localStop (later : 0 ≤ i.start.val) :
    ∀ child ∈ s.children, ¬ child.Meets i s.localStop := by
  rintro child mem ⟨⟨c, taken, -⟩, -, reaches⟩
  have ended := hs.le_localStop mem (List.ne_nil_of_mem taken)
  rw [hs.stop_val mem] at ended
  omega

include hs in
/-- At the last committed stop only the range of times decides. -/
theorem Sound.admits_localStop_iff (later : 0 ≤ i.start.val) :
    s.Admits s.localStop i ↔ s.HasRoomFor i := by
  have nonneg := hs.localStop_nonneg
  have lower := s.start.lower
  constructor
  · intro admits
    have ends := admits.ends
    have fits := admits.fits
    exact ⟨⟨by omega, by omega⟩, by omega, by omega⟩
  · rintro ⟨⟨-, ends⟩, -, fits⟩
    exact ⟨by omega, by omega, by omega, hs.not_meets_localStop later⟩

include hs in
theorem Sound.refuses_localStop (later : 0 ≤ i.start.val) {fault : PulseError}
    (refuses : s.Refuses s.localStop i fault) : ∃ time, fault = .timeOverflow time := by
  have nonneg := hs.localStop_nonneg
  cases refuses with
  | negative sum negative => omega
  | conflict _ mem meets => exact absurd meets (hs.not_meets_localStop later _ mem)
  | overflow _ => exact ⟨_, rfl⟩

include hi in
/-- What takes no channel does not move the stop. -/
theorem localStop_placed_of_free (time : Time) (free : i.channels = []) :
    (s.placed time i).localStop = s.localStop := by
  have slots : (s.placed time i).occupancy.slots = s.occupancy.slots := by
    rw [placed, Occupancy.slots_mergedUnchecked, hi.slots_moved, free, List.map_nil,
      List.append_nil]
  rw [localStop, Occupancy.stop?, slots, localStop, Occupancy.stop?]

include hs hi in
/-- What takes a channel, and ends no earlier than the schedule stopped, is where it stops now. -/
theorem Sound.localStop_placed_of_taking {time : Time} (admits : s.Admits time i)
    (taken : i.channels ≠ [])
    (last : s.localStop.val ≤ i.start.val + time.val + i.duration.toNat) :
    (s.placed time i).localStop.val = i.start.val + time.val + i.duration.toNat := by
  have after := hs.placed hi admits
  have new : i.shiftedClamped time ∈ (s.placed time i).children :=
    List.mem_append_right _ (List.mem_singleton_self _)
  have stop := Instruction.stop_shiftedClamped admits.canMove
  rw [← stop] at last
  rw [after.localStop_eq new taken, stop]
  intro child mem takes
  rcases List.mem_append.1 mem with old | new
  · exact Int.le_trans (hs.le_localStop old takes) last
  · rw [List.mem_singleton.1 new]

end Placed

/-! ## One instruction -/

section One

variable {s : Schedule} (hs : s.Sound) {i : Instruction} (hi : i.Sound) (later : 0 ≤ i.start.val)

include hs hi later

/-- Appending places an instruction at the last committed stop, or reports an overflow. -/
theorem Sound.append_cases :
    s.HasRoomFor i ∧ s.append (.instruction i) = .ok (s.placed s.localStop i) ∨
      ¬ s.HasRoomFor i ∧ ∃ time, s.append (.instruction i) = .error (.timeOverflow time) := by
  rw [← hs.admits_localStop_iff later]
  rcases place_cases hs hi s.localStop with ⟨admits, done⟩ | ⟨fault, refuses, refused⟩
  · exact .inl ⟨admits, append_eq_ok_iff.2 done⟩
  · obtain ⟨time, rfl⟩ := hs.refuses_localStop later refuses
    refine .inr ⟨refuses.not_admits, time, ?_⟩
    rw [append, insert_instruction, refused]

theorem Sound.localStop_append (room : s.HasRoomFor i) :
    (s.placed s.localStop i).localStop.val =
      if i.channels = [] then s.localStop.val
      else s.localStop.val + i.start.val + i.duration.toNat := by
  split
  · next free => rw [localStop_placed_of_free hi s.localStop free]
  · next taken =>
      have admits := (hs.admits_localStop_iff later).2 room
      rw [hs.localStop_placed_of_taking hi admits taken (by omega)]
      omega

end One

/-! ## One after another -/

/-- Append instructions one after another, up to the first that is refused. -/
def appendAll (s : Schedule) (items : List Instruction) : Except PulseError Schedule :=
  items.foldlM (fun s i => s.append (.instruction i)) s

theorem Sound.appendAll_cons_eq_ok {s t : Schedule} (hs : s.Sound) {i : Instruction} (hi : i.Sound)
    (later : 0 ≤ i.start.val) {rest : List Instruction} (h : s.appendAll (i :: rest) = .ok t) :
    s.HasRoomFor i ∧ (s.placed s.localStop i).appendAll rest = .ok t := by
  rw [appendAll, List.foldlM_cons] at h
  rcases hs.append_cases hi later with ⟨room, done⟩ | ⟨-, time, refused⟩
  · rw [done] at h
    exact ⟨room, h⟩
  · rw [refused] at h
    cases h

/-- Instructions that were appended lie end to end, from where the schedule stopped. -/
theorem Sound.appendAll_eq_ok {s t : Schedule} (hs : s.Sound) {items : List Instruction}
    (sound : ∀ i ∈ items, i.Sound) (unshifted : ∀ i ∈ items, i.start = Time.zero)
    (taken : ∀ i ∈ items, i.channels ≠ []) (h : s.appendAll items = .ok t) :
    ∃ added, t.children = s.children ++ added ∧ added.length = items.length ∧
      ∀ k (hk : k < items.length), ∃ child, added[k]? = some child ∧
        child = { items[k] with start := child.start } ∧
        child.start.val = s.localStop.val + ((items.take k).map (·.duration.toNat)).sum := by
  induction items generalizing s with
  | nil =>
      cases h
      exact ⟨[], (List.append_nil _).symm, rfl, fun k hk => absurd hk (Nat.not_lt_zero k)⟩
  | cons i rest ih =>
      obtain ⟨hi, sound⟩ := List.forall_mem_cons.1 sound
      obtain ⟨start, unshifted⟩ := List.forall_mem_cons.1 unshifted
      obtain ⟨takes, taken⟩ := List.forall_mem_cons.1 taken
      have later : 0 ≤ i.start.val := Int.le_of_eq (congrArg Time.val start).symm
      obtain ⟨room, h⟩ := hs.appendAll_cons_eq_ok hi later h
      have admits := (hs.admits_localStop_iff later).2 room
      have stop := hs.localStop_append hi later room
      rw [if_neg takes, start, Time.val_zero, Int.add_zero] at stop
      obtain ⟨added, children, length, places⟩ :=
        ih (hs.placed hi admits) sound unshifted taken h
      refine ⟨i.shiftedClamped s.localStop :: added, ?_, congrArg (· + 1) length, ?_⟩
      · rw [children]
        exact List.append_assoc _ [_] _
      · rintro (- | k) hk
        · refine ⟨_, rfl, rfl, ?_⟩
          rw [admits.start_shiftedClamped, start, Time.val_zero, Int.zero_add]
          exact (Int.add_zero _).symm
        · obtain ⟨child, found, same, place⟩ := places k (Nat.lt_of_succ_lt_succ hk)
          refine ⟨child, found, same, ?_⟩
          rw [place, stop, List.take_succ_cons, List.map_cons, List.sum_cons, Int.natCast_add,
            Int.add_assoc]

/-! ## Appending is exact -/

/-- What appending an instruction leaves: a gain at the last committed stop, which moves to the end
of the instruction if this takes a channel. -/
structure Continued (s : Schedule) (i : Instruction) (after : Schedule) : Prop where
  gains : s.Gains s.localStop i after
  free : i.channels = [] → after.localStop = s.localStop
  taking : i.channels ≠ [] →
    after.localStop.val = s.localStop.val + i.start.val + i.duration.toNat

theorem Sound.continued {s : Schedule} (hs : s.Sound) {i : Instruction} (hi : i.Sound)
    (later : 0 ≤ i.start.val) (room : s.HasRoomFor i) :
    s.Continued i (s.placed s.localStop i) where
  gains := hs.gains hi ((hs.admits_localStop_iff later).2 room)
  free := localStop_placed_of_free hi s.localStop
  taking takes := by rw [hs.localStop_append hi later room, if_neg takes]

/-- Appending an instruction that does not start before zero succeeds if and only if there is room
for it, and then continues the schedule.  Otherwise it reports an overflow and leaves the schedule
as it was, and never reports a conflict.  Unshifted instructions that take channels, appended to an
empty schedule, start each at the sum of the durations before it. -/
theorem append_exact {s : Schedule} (hs : s.Reachable) :
    (∀ i : Instruction, i.Built → 0 ≤ i.start.val →
      (s.HasRoomFor i → ∃ t, s.append (.instruction i) = .ok t ∧
        s.appendInPlace (.instruction i) = (.ok (), t) ∧ s.Continued i t) ∧
      (¬ s.HasRoomFor i → ∃ time, s.append (.instruction i) = .error (.timeOverflow time) ∧
        s.appendInPlace (.instruction i) = (.error (.timeOverflow time), s))) ∧
    (s.isEmpty → ∀ items : List Instruction,
      (∀ i ∈ items, i.Built ∧ i.start = Time.zero ∧ i.channels ≠ []) →
      ∀ t, s.appendAll items = .ok t → t.children.length = items.length ∧
        ∀ k (hk : k < items.length), ∃ child, t.children[k]? = some child ∧
          child = { items[k] with start := child.start } ∧
          child.start.val = ((items.take k).map (·.duration.toNat)).sum) := by
  have sound := hs.sound
  constructor
  · intro i built later
    unfold appendInPlace
    rcases sound.append_cases built.sound later with ⟨room, done⟩ | ⟨full, time, refused⟩
    · rw [done]
      exact ⟨fun _ => ⟨_, rfl, rfl, sound.continued built.sound later room⟩,
        fun full => absurd room full⟩
    · rw [refused]
      exact ⟨fun room => absurd room full, fun _ => ⟨time, rfl, rfl⟩⟩
  · intro empty items all t h
    have none : s.children = [] := List.isEmpty_iff.1 empty
    obtain ⟨added, children, length, places⟩ := sound.appendAll_eq_ok
      (fun i mem => (all i mem).1.sound) (fun i mem => (all i mem).2.1)
      (fun i mem => (all i mem).2.2) h
    have stop : s.localStop.val = 0 := by
      rcases sound.localStop_cases with ⟨free, -⟩ | ⟨child, mem, -⟩
      · rw [free, Time.val_zero]
      · rw [none] at mem
        cases mem
    rw [none, List.nil_append] at children
    simp only [stop, Int.zero_add] at places
    rw [children]
    exact ⟨length, places⟩

/-- In a frame that ends after twenty samples, two readouts of eight lie end to end, and there is no
room for a third. -/
theorem append_readouts :
    ∃ i, Instruction.acquire { duration := 8 } [0] [] [] = .ok i ∧
      let s : Schedule := { new ⟨⟨0⟩⟩ with start := ⟨9223372036854775787, by decide, by decide⟩ }
      s.Reachable ∧ s.isEmpty ∧ i.Built ∧ s.HasRoomFor i ∧
        (∃ t, s.append (.instruction i) = .ok t ∧ s.Continued i t) ∧
        ∃ u, s.appendAll [i, i] = .ok u ∧
          (∀ k (hk : k < [i, i].length), ∃ child, u.children[k]? = some child ∧
            child = { [i, i][k] with start := child.start } ∧
            child.start.val = (([i, i].take k).map (·.duration.toNat)).sum) ∧
          u.Reachable ∧ ¬ u.HasRoomFor i ∧
          ∃ time, u.append (.instruction i) = .error (.timeOverflow time) := by
  obtain ⟨i, made, unshifted, length, taken⟩ :
      ∃ i, Instruction.acquire { duration := 8 } [0] [] [] = .ok i ∧ i.start = Time.zero ∧
        i.duration.toNat = 8 ∧ i.channels ≠ [] :=
    ⟨_, rfl, rfl, rfl, List.cons_ne_nil _ _⟩
  refine ⟨i, made, ?_⟩
  intro s
  have built : Component.Built (.instruction i) := Instruction.built_acquire made
  have start : i.start.val = 0 := congrArg Time.val unshifted
  have room {t : Schedule} (frame : t.start = s.start) (begun : 0 ≤ t.localStop.val) :
      t.HasRoomFor i ↔ t.localStop.val + 8 ≤ 20 := by
    have edge : t.start.val = 9223372036854775787 := congrArg Time.val frame
    exact ⟨fun ⟨_, _, fits⟩ => by omega, fun fits => ⟨⟨by omega, by omega⟩, by omega, by omega⟩⟩
  have started : (new ⟨⟨0⟩⟩).withStart ⟨9223372036854775787, by decide, by decide⟩ = .ok s := rfl
  have reachable : s.Reachable := .withStart (.new _ _) started
  have empty : s.localStop.val = 0 := rfl
  obtain ⟨one, all⟩ := append_exact reachable
  have first : s.HasRoomFor i := (room rfl (by omega)).2 (by omega)
  obtain ⟨t, done, -, half⟩ := (one i built (by omega)).1 first
  have frame := half.gains.start
  have half' := half.taking taken
  have second : t.HasRoomFor i := (room frame (by omega)).2 (by omega)
  have reached : t.Reachable := .append reachable built done
  obtain ⟨u, done', -, whole⟩ := ((append_exact reached).1 i built (by omega)).1 second
  have frame' := whole.gains.start.trans frame
  have whole' := whole.taking taken
  have third : ¬ u.HasRoomFor i := fun third => by
    have := (room frame' (by omega)).1 third
    omega
  have reached' : u.Reachable := .append reached built done'
  obtain ⟨time, refused, -⟩ := ((append_exact reached').1 i built (by omega)).2 third
  have ran : s.appendAll [i, i] = .ok u := by
    rw [appendAll, List.foldlM_cons, done]
    exact congrArg (· >>= pure) done'
  have same : ∀ j ∈ [i, i], j.Built ∧ j.start = Time.zero ∧ j.channels ≠ [] := fun j mem => by
    obtain rfl : j = i := by simpa using mem
    exact ⟨built, unshifted, taken⟩
  have lined := (all rfl [i, i] same u ran).2
  exact ⟨reachable, rfl, built, first, ⟨t, done, half⟩, u, ran, lined, reached', third, time,
    refused⟩

end Schedule

end QuantumControl.Pulse
