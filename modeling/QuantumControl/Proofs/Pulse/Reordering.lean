import QuantumControl.Proofs.Pulse.Schedule

/-!
# Placements in any order

Whether an instruction is admitted depends on everything that was placed before it.
But what is placed changes only which children there are to be met, and two placements
meet each other or not whichever comes first (`Crosses`).  So all of a list of placements
succeed if and only if each is admitted by the schedule as it was, and no two of them
cross (`Schedule.Fits`), and neither depends on the order of the list.
-/

namespace QuantumControl.Pulse

/-- An instruction to be placed at a time. -/
structure Placement where
  time : Time
  item : Instruction

/-- Two placements meet on a channel of both, in exact integers. -/
def Placement.Crosses (a b : Placement) : Prop :=
  (∃ c ∈ a.item.channels, c ∈ b.item.channels) ∧
    a.item.start.val + a.time.val < b.item.start.val + b.time.val + b.item.duration.toNat ∧
    b.item.start.val + b.time.val < a.item.start.val + a.time.val + a.item.duration.toNat

theorem Placement.Crosses.symm {a b : Placement} (h : a.Crosses b) : b.Crosses a := by
  obtain ⟨⟨c, ha, hb⟩, before, after⟩ := h
  exact ⟨⟨c, hb, ha⟩, after, before⟩

/-- An instruction that was moved to its place meets what crosses it. -/
theorem Instruction.meets_shiftedClamped {a b : Placement} (inside : a.item.window.CanMove a.time) :
    (a.item.shiftedClamped a.time).Meets b.item b.time ↔ a.Crosses b := by
  have start : (a.item.shiftedClamped a.time).start.val = a.item.start.val + a.time.val :=
    Interval.moved_start inside
  unfold Meets
  rw [start]
  exact Iff.rfl

namespace Schedule

/-- Insert instructions at their times, one after the other, up to the first that is refused. -/
def insertAll (s : Schedule) : List Placement → Except PulseError Unit × Schedule
  | [] => (.ok (), s)
  | ⟨time, i⟩ :: rest =>
      match s.insertInPlace time (.instruction i) with
      | (.ok (), after) => after.insertAll rest
      | (.error fault, after) => (.error fault, after)

/-- The schedule with placements made, without a check. -/
def placedAll (s : Schedule) (placements : List Placement) : Schedule :=
  placements.foldl (fun s e => s.placed e.time e.item) s

/-- Each placement is admitted, and no two cross. -/
structure Fits (s : Schedule) (placements : List Placement) : Prop where
  admits : ∀ e ∈ placements, s.Admits e.time e.item
  apart : placements.Pairwise fun a b => ¬ a.Crosses b

theorem Fits.perm {s : Schedule} {placements others : List Placement} (h : s.Fits placements)
    (perm : placements.Perm others) : s.Fits others where
  admits e mem := h.admits e (perm.mem_iff.2 mem)
  apart := h.apart.perm perm fun apart crosses => apart crosses.symm

/-! ## One placement after the other -/

section Steps

variable {s : Schedule} {e : Placement}

/-- A placement adds one child to be met, and leaves all bounds as they are. -/
theorem admits_placed_iff (inside : e.item.window.CanMove e.time) (next : Placement) :
    (s.placed e.time e.item).Admits next.time next.item ↔
      s.Admits next.time next.item ∧ ¬ e.Crosses next := by
  rw [← Instruction.meets_shiftedClamped inside]
  constructor
  · intro h
    obtain ⟨old, new⟩ := List.forall_mem_append.1 h.apart
    exact ⟨⟨h.nonneg, h.ends, h.fits, old⟩, new _ (List.mem_singleton_self _)⟩
  · rintro ⟨h, new⟩
    exact ⟨h.nonneg, h.ends, h.fits,
      List.forall_mem_append.2 ⟨h.apart, List.forall_mem_singleton.2 new⟩⟩

theorem fits_cons_iff {rest : List Placement} :
    s.Fits (e :: rest) ↔ s.Admits e.time e.item ∧ (s.placed e.time e.item).Fits rest := by
  constructor
  · rintro ⟨admits, apart⟩
    obtain ⟨first, others⟩ := List.forall_mem_cons.1 admits
    obtain ⟨clear, later⟩ := List.pairwise_cons.1 apart
    refine ⟨first, fun f mem => ?_, later⟩
    exact (admits_placed_iff first.canMove f).2 ⟨others f mem, clear f mem⟩
  · rintro ⟨first, admits, later⟩
    have step := fun f mem => (admits_placed_iff first.canMove f).1 (admits f mem)
    exact ⟨List.forall_mem_cons.2 ⟨first, fun f mem => (step f mem).1⟩,
      List.pairwise_cons.2 ⟨fun f mem => (step f mem).2, later⟩⟩

variable (hs : s.Sound) (hi : e.item.Sound)

include hs hi

theorem insertInPlace_of_admits (admits : s.Admits e.time e.item) :
    s.insertInPlace e.time (.instruction e.item) = (.ok (), s.placed e.time e.item) := by
  rw [insertInPlace, insert_instruction, (hs.place_eq_ok_iff hi).2 ⟨admits, rfl⟩]
  rfl

theorem insertInPlace_of_not_admits (refused : ¬ s.Admits e.time e.item) :
    ∃ fault, s.insertInPlace e.time (.instruction e.item) = (.error fault, s) := by
  rw [insertInPlace, insert_instruction]
  rcases place_cases hs hi e.time with ⟨admits, -⟩ | ⟨fault, -, done⟩
  · exact absurd admits refused
  · rw [done]
    exact ⟨fault, rfl⟩

end Steps

/-! ## All placements -/

section All

variable {s : Schedule} {placements : List Placement} (hs : s.Sound)
  (sound : ∀ e ∈ placements, e.item.Sound)

include hs sound

/-- All placements are made if they fit, and only then. -/
theorem insertAll_cases :
    s.Fits placements ∧ s.insertAll placements = (.ok (), s.placedAll placements) ∨
      ¬ s.Fits placements ∧ (s.insertAll placements).1 ≠ .ok () := by
  induction placements generalizing s with
  | nil => exact .inl ⟨⟨List.forall_mem_nil _, List.Pairwise.nil⟩, rfl⟩
  | cons e rest ih =>
      obtain ⟨first, later⟩ := List.forall_mem_cons.1 sound
      rw [fits_cons_iff, insertAll]
      by_cases admits : s.Admits e.time e.item
      · rw [insertInPlace_of_admits hs first admits]
        rcases ih (hs.placed first admits) later with ⟨fits, done⟩ | ⟨stuck, failed⟩
        · exact .inl ⟨⟨admits, fits⟩, done⟩
        · exact .inr ⟨fun fits => stuck fits.2, failed⟩
      · obtain ⟨fault, refused⟩ := insertInPlace_of_not_admits hs first admits
        rw [refused]
        exact .inr ⟨fun fits => admits fits.1, nofun⟩

theorem insertAll_eq_ok_iff : (s.insertAll placements).1 = .ok () ↔ s.Fits placements := by
  rcases insertAll_cases hs sound with ⟨fits, done⟩ | ⟨stuck, failed⟩
  · rw [done]
    exact ⟨fun _ => fits, fun _ => rfl⟩
  · exact ⟨fun succeeds => absurd succeeds failed, fun fits => absurd fits stuck⟩

theorem insertAll_of_fits (fits : s.Fits placements) :
    s.insertAll placements = (.ok (), s.placedAll placements) := by
  rcases insertAll_cases hs sound with ⟨-, done⟩ | ⟨stuck, -⟩
  · exact done
  · exact absurd fits stuck

theorem Sound.placedAll (fits : s.Fits placements) : (s.placedAll placements).Sound := by
  induction placements generalizing s with
  | nil => exact hs
  | cons e rest ih =>
      obtain ⟨first, later⟩ := List.forall_mem_cons.1 sound
      obtain ⟨admits, fits⟩ := fits_cons_iff.1 fits
      exact ih (hs.placed first admits) later fits

end All

/-- Placements leave the schedule's own data and add their instructions in order. -/
theorem placedAll_eq (s : Schedule) (placements : List Placement) :
    (s.placedAll placements).id = s.id ∧ (s.placedAll placements).name = s.name ∧
      (s.placedAll placements).start = s.start ∧
      (s.placedAll placements).children =
        s.children ++ placements.map fun e => e.item.shiftedClamped e.time := by
  induction placements generalizing s with
  | nil => exact ⟨rfl, rfl, rfl, (List.append_nil _).symm⟩
  | cons e rest ih =>
      obtain ⟨id, name, start, children⟩ := ih (s.placed e.time e.item)
      refine ⟨id, name, start, ?_⟩
      rw [placedAll, List.foldl_cons, ← placedAll, children, List.map_cons]
      exact List.append_assoc _ [_] _

/-! ## Schedules with the same children -/

/-- Two schedules that differ in the order of their children at most, and so in the order of the
intervals that are taken on each channel. -/
structure Reorders (a b : Schedule) : Prop where
  id : a.id = b.id
  name : a.name = b.name
  start : a.start = b.start
  duration : a.localStop = b.localStop
  stop : a.stop = b.stop
  children : a.children.Perm b.children
  intervals : ∀ c, (a.occupancy.intervals c).Perm (b.occupancy.intervals c)

/-- What a sound schedule takes follows from its children. -/
theorem Sound.reorders {a b : Schedule} (ha : a.Sound) (hb : b.Sound) (id : a.id = b.id)
    (name : a.name = b.name) (start : a.start = b.start)
    (children : a.children.Perm b.children) : a.Reorders b := by
  have slots : a.occupancy.slots.Perm b.occupancy.slots := by
    rw [ha.slots, hb.slots]
    exact children.flatMap_right _
  have duration : a.localStop = b.localStop := by
    rw [localStop, localStop, Occupancy.stop?, Occupancy.stop?,
      Time.latest?_perm (slots.map (·.interval.stop))]
  refine ⟨id, name, start, duration, ?_, children, fun c => ?_⟩
  · rw [stop, stop, start, duration]
  · rw [Occupancy.intervals, Occupancy.intervals, ha.occupancy.indexes.getD,
      hb.occupancy.indexes.getD]
    exact (slots.filter _).map _

/-- Placements in another order succeed throughout if and only if they do in this one, and then
leave the same schedule up to the order of its children. -/
theorem insertAll_perm {s : Schedule} (hs : s.Reachable) {placements others : List Placement}
    (built : ∀ e ∈ placements, e.item.Built) (perm : placements.Perm others) :
    ((s.insertAll placements).1 = .ok () ↔ (s.insertAll others).1 = .ok ()) ∧
      ((s.insertAll placements).1 = .ok () →
        (s.insertAll placements).2.Reorders (s.insertAll others).2) := by
  have sound : ∀ e ∈ placements, e.item.Sound := fun e mem => (built e mem).sound
  have soundOthers : ∀ e ∈ others, e.item.Sound := fun e mem => sound e (perm.mem_iff.2 mem)
  rw [insertAll_eq_ok_iff hs.sound sound, insertAll_eq_ok_iff hs.sound soundOthers]
  refine ⟨⟨fun fits => fits.perm perm, fun fits => fits.perm perm.symm⟩, fun fits => ?_⟩
  have fitsOthers := fits.perm perm
  rw [insertAll_of_fits hs.sound sound fits, insertAll_of_fits hs.sound soundOthers fitsOthers]
  obtain ⟨id, name, start, children⟩ := s.placedAll_eq placements
  obtain ⟨id', name', start', children'⟩ := s.placedAll_eq others
  refine (hs.sound.placedAll sound fits).reorders (hs.sound.placedAll soundOthers fitsOthers)
    (id.trans id'.symm) (name.trans name'.symm) (start.trans start'.symm) ?_
  rw [children, children']
  exact (perm.map _).append_left _

/-- Two readouts one after the other, and a snapshot between them that takes no channel. -/
theorem insertAll_perm_readouts :
    ∃ i mark, Instruction.acquire { duration := 16 } [0] [0] [] = .ok i ∧
      Instruction.snapshot "half" "state" = .ok mark ∧
      let s := new ⟨⟨0⟩⟩
      let placements := [⟨.ofSamples 16, i⟩, ⟨.ofSamples 8, mark⟩, ⟨.zero, i⟩]
      let others := [⟨.zero, i⟩, ⟨.ofSamples 16, i⟩, ⟨.ofSamples 8, mark⟩]
      s.Reachable ∧ (∀ e ∈ placements, e.item.Built) ∧ placements.Perm others ∧
        (s.insertAll others).1 = .ok () ∧
        (s.insertAll placements).2.children.map (·.start.val) = [16, 8, 0] ∧
        (s.insertAll placements).2.Reorders (s.insertAll others).2 := by
  refine ⟨_, _, rfl, rfl, ?_⟩
  intro s placements others
  have readout := @Instruction.built_acquire { duration := 16 } [0] [0] [] _ rfl
  have mark := @Instruction.Built.new (.snapshot "half" "state") [] _ rfl
  have built : ∀ e ∈ placements, e.item.Built :=
    List.forall_mem_cons.2 ⟨readout, List.forall_mem_cons.2
      ⟨mark, List.forall_mem_singleton.2 readout⟩⟩
  have perm : placements.Perm others := @List.perm_append_comm _ [_, _] [_]
  have reachable : s.Reachable := .new _ _
  obtain ⟨succeeds, reorders⟩ := insertAll_perm reachable built perm
  exact ⟨reachable, built, perm, succeeds.1 rfl, rfl, reorders rfl⟩

end Schedule

end QuantumControl.Pulse
