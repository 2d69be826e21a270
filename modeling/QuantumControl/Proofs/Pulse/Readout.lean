import QuantumControl.Proofs.Pulse.Envelope
import QuantumControl.Proofs.Pulse.Layout
import QuantumControl.Pulse.Sweep

/-!
# Rotation and readout of a register

Every qubit is rotated at zero, and the turn of its frame is appended, that is put at the stop of
whatever is there by then.  Each rotation is as long as any other and a turn takes no time, so the
stop is the same for all qubits: the end of a rotation (`LaidOut.localStop_of_rotations`).  With
that the loop over the qubits keeps a layout of their rotations and turns
(`LaidOut.addRotation`), and so does the loop over the stimuli, which begin where the first one
ends (`LaidOut.addStimulus`).  What is on each channel is read off the final layout
(`windowsOn_layout`).
-/

namespace QuantumControl.Pulse

/-! ## Pulses of a sweep -/

/-- A pulse that is built and named has the duration that was asked for. -/
theorem duration_of_named {shape : PulseShape} {duration : UInt32} {amplitude : Complex}
    {name : String} {pulse : ParametricPulse}
    (h : (ParametricPulse.new shape duration amplitude).map (·.withName name) = .ok pulse) :
    pulse.duration = duration := by
  cases made : ParametricPulse.new shape duration amplitude with
  | error fault =>
      rw [made] at h
      cases h
  | ok p =>
      rw [made] at h
      cases h
      rw [(ParametricPulse.build_eq_ok_iff.1 made).1]
      rfl

theorem duration_of_x90 {amplitude : Float} {pulse : ParametricPulse}
    (h : x90 amplitude = .ok pulse) : pulse.duration = rotationDuration := duration_of_named h

theorem exists_of_isOk {ε α : Type} {x : Except ε α} (h : x.isOk) : ∃ a, x = .ok a := by
  cases x with
  | error fault => cases h
  | ok a => exact ⟨a, rfl⟩

/-- The readout stimulus satisfies the constraints of its shape. -/
theorem exists_stimulus : ∃ pulse, stimulus = .ok pulse ∧ pulse.duration = readoutDuration := by
  obtain ⟨pulse, made⟩ := exists_of_isOk (by decide +kernel : stimulus.isOk)
  exact ⟨pulse, made, duration_of_named made⟩

/-! ## The layout of a register -/

/-- The rotation of a qubit, and the turn of its frame when the rotation is over. -/
def rotation (pulse : ParametricPulse) (qubit : UInt32) : List Instruction :=
  [.boundAt 0 (.parametric pulse) [.drive qubit],
    .boundAt rotationDuration (.frameChange quarterTurn) [.drive qubit]]

/-- The readout stimulus of a qubit, from the end of the rotations on. -/
def readout (pulse : ParametricPulse) (qubit : UInt32) : Instruction :=
  .boundAt rotationDuration (.parametric pulse) [.measure qubit]

/-- The acquisition of a readout. -/
def linear : Acquisition := { duration := readoutDuration, discriminator := some "linear" }

/-- The acquisition of all qubits, beside their stimuli. -/
def acquisition (qubits : List UInt32) : Instruction :=
  .boundAt rotationDuration (.acquire linear) (Instruction.acquired qubits qubits [])

/-- The rotations and turns qubit by qubit, then the stimuli, then the acquisition. -/
def layout (rotated stimulated : ParametricPulse) (qubits : List UInt32) : List Instruction :=
  qubits.flatMap (rotation rotated) ++ qubits.map (readout stimulated) ++ [acquisition qubits]

section Rotation

variable {pulse : ParametricPulse} {qubits : List UInt32} {qubit : UInt32} {child : Instruction}

theorem channels_of_mem_rotation (mem : child ∈ rotation pulse qubit) :
    child.channels = [.drive qubit] := by
  rcases List.mem_pair.1 mem with rfl | rfl
  · rfl
  · rfl

/-- The rotation and the turn are over at the same time. -/
theorem stop_of_mem_rotation (long : pulse.duration = rotationDuration)
    (mem : child ∈ rotation pulse qubit) : child.stop = Time.ofSamples rotationDuration := by
  apply Time.ext
  rcases List.mem_pair.1 mem with rfl | rfl
  · refine (Time.val_later_ofSamples 0 pulse.duration).trans ?_
    rw [long]
    rfl
  · exact Time.val_later_ofSamples rotationDuration 0

theorem exists_of_mem_rotations (mem : child ∈ qubits.flatMap (rotation pulse)) :
    ∃ q ∈ qubits, child.channels = [.drive q] := by
  obtain ⟨q, there, mem⟩ := List.mem_flatMap.1 mem
  exact ⟨q, there, channels_of_mem_rotation mem⟩

end Rotation

/-! ## Loops over a register -/

/-- A loop over distinct elements keeps an invariant if each step does, that is for an element that
was not there before. -/
theorem exists_foldlM {α β ε : Type} {f : β → α → Except ε β} (Inv : List α → β → Prop)
    (step : ∀ {done a b}, a ∉ done → Inv done b → ∃ c, f b a = .ok c ∧ Inv (done ++ [a]) c)
    (done : List α) {todo : List α} {b : β} (distinct : (done ++ todo).Nodup) (start : Inv done b) :
    ∃ c, todo.foldlM f b = .ok c ∧ Inv (done ++ todo) c := by
  -- What is done grows at its end, so that the invariant is about the elements in loop order.
  induction todo generalizing done b with
  | nil => exact ⟨b, rfl, (List.append_nil done).symm ▸ start⟩
  | cons a todo ih =>
      have new : a ∉ done := fun mem =>
        List.disjoint_of_nodup_append distinct mem List.mem_cons_self
      rw [List.append_cons] at distinct ⊢
      obtain ⟨b', ran, next⟩ := step new start
      rw [List.foldlM_cons, ran]
      exact ih _ distinct next

namespace Schedule.LaidOut

variable {s : Schedule} {amplitude : Float} {rotated stimulated : ParametricPulse}
  {qubits done : List UInt32} {qubit : UInt32}

/-- Rotations and turns of any qubits stop at the end of a rotation. -/
theorem localStop_of_rotations {children : List Instruction} (h : s.LaidOut children)
    (long : rotated.duration = rotationDuration) (some : children ≠ [])
    (all : ∀ child ∈ children, ∃ q, child ∈ rotation rotated q) :
    s.localStop = Time.ofSamples rotationDuration := by
  obtain ⟨child, mem⟩ := List.exists_mem_of_ne_nil _ some
  have taken : child.channels ≠ [] := by
    obtain ⟨q, here⟩ := all child mem
    rw [channels_of_mem_rotation here]
    exact List.cons_ne_nil _ _
  refine h.localStop_eq (fun other there => ?_) mem taken
  obtain ⟨q, here⟩ := all other there
  exact stop_of_mem_rotation long here

/-- One more qubit is rotated.  Its turn goes to the end of its own rotation, since the other
rotations and turns are over by then. -/
theorem addRotation (made : x90 amplitude = .ok rotated) (new : qubit ∉ done)
    (h : s.LaidOut (done.flatMap (rotation rotated))) :
    ∃ t, Pulse.addRotation amplitude s qubit = .ok t ∧
      t.LaidOut ((done ++ [qubit]).flatMap (rotation rotated)) := by
  have played := Instruction.new_singleton (.parametric rotated) (.drive qubit) rfl
  have turned := Instruction.new_singleton (.frameChange quarterTurn) (.drive qubit) rfl
  obtain ⟨t, inserted, ht⟩ := h.insert played 0 fun child mem c taken wanted => by
    obtain ⟨q, there, channels⟩ := exists_of_mem_rotations mem
    rw [channels, List.mem_singleton] at taken
    rw [taken, List.mem_singleton] at wanted
    cases wanted
    exact new there
  have stop : t.localStop = Time.ofSamples rotationDuration := by
    refine ht.localStop_of_rotations (duration_of_x90 made)
      (List.append_ne_nil_of_right_ne_nil _ (List.cons_ne_nil _ _)) fun child mem => ?_
    rcases List.mem_append.1 mem with before | mem
    · obtain ⟨q, -, mem⟩ := List.mem_flatMap.1 before
      exact ⟨q, mem⟩
    · exact ⟨qubit, List.mem_cons.2 (.inl (List.mem_singleton.1 mem))⟩
  obtain ⟨u, appended, hu⟩ := ht.append turned stop
  refine ⟨u, ?_, ?_⟩
  · refine bind_eq_ok_iff.2 ⟨rotated, made, ?_⟩
    refine bind_eq_ok_iff.2 ⟨_, played, ?_⟩
    refine bind_eq_ok_iff.2 ⟨t, inserted, ?_⟩
    exact bind_eq_ok_iff.2 ⟨_, turned, appended⟩
  · rw [List.flatMap_append, List.flatMap_singleton]
    rwa [List.append_assoc] at hu

/-- The stimulus of one more qubit is played. -/
theorem addStimulus (made : stimulus = .ok stimulated) (new : qubit ∉ done)
    (h : s.LaidOut (qubits.flatMap (rotation rotated) ++ done.map (readout stimulated))) :
    ∃ t, Pulse.addStimulus (Time.ofSamples rotationDuration) s qubit = .ok t ∧
      t.LaidOut (qubits.flatMap (rotation rotated) ++
        (done ++ [qubit]).map (readout stimulated)) := by
  have played := Instruction.new_singleton (.parametric stimulated) (.measure qubit) rfl
  obtain ⟨t, inserted, ht⟩ := h.insert played rotationDuration fun child mem c taken wanted => by
    rw [List.mem_singleton] at wanted
    rcases List.mem_append.1 mem with drive | measure
    · obtain ⟨q, -, channels⟩ := exists_of_mem_rotations drive
      rw [channels, List.mem_singleton, wanted] at taken
      cases taken
    · obtain ⟨q, there, rfl⟩ := List.mem_map.1 measure
      cases (List.mem_singleton.1 taken).symm.trans wanted
      exact new there
  refine ⟨t, ?_, ?_⟩
  · refine bind_eq_ok_iff.2 ⟨stimulated, made, ?_⟩
    exact bind_eq_ok_iff.2 ⟨_, played, inserted⟩
  · rw [List.map_append, ← List.append_assoc]
    exact ht

/-- All qubits are acquired, where only rotations and stimuli were placed. -/
theorem acquire (distinct : qubits.Nodup)
    (h : s.LaidOut (qubits.flatMap (rotation rotated) ++ qubits.map (readout stimulated))) :
    ∃ acquisition, Instruction.acquire linear qubits qubits [] = .ok acquisition ∧
      ∃ t, s.insert (Time.ofSamples rotationDuration) (.instruction acquisition) = .ok t ∧
        t.LaidOut (layout rotated stimulated qubits) := by
  have acquired : Instruction.new (.acquire linear) (Instruction.acquired qubits qubits []) =
      .ok (.bound (.acquire linear) (Instruction.acquired qubits qubits [])) :=
    Instruction.new_eq_ok_iff.2 ⟨⟨Instruction.supports_acquired, .inl
      (Instruction.nodup_acquired_iff.2 ⟨distinct, distinct, List.nodup_nil⟩)⟩, rfl⟩
  refine ⟨_, acquired, h.insert acquired rotationDuration fun child mem c taken wanted => ?_⟩
  have supported : c.supports (.acquire linear) := Instruction.supports_acquired c wanted
  have output : c.isOutput = true := by
    rcases List.mem_append.1 mem with drive | measure
    · obtain ⟨q, -, channels⟩ := exists_of_mem_rotations drive
      rw [channels, List.mem_singleton] at taken
      rw [taken]
      rfl
    · obtain ⟨q, -, rfl⟩ := List.mem_map.1 measure
      rw [List.mem_singleton.1 taken]
      rfl
  rw [Channel.supports, output] at supported
  cases supported

end Schedule.LaidOut

/-! ## What is on a channel -/

/-- If only one element of a list without repetitions has an image, it is the image of the list. -/
theorem flatMap_eq_of_nodup {α β : Type} {f : α → List β} {as : List α} (distinct : as.Nodup)
    {a : α} (mem : a ∈ as) (others : ∀ b ∈ as, b ≠ a → f b = []) : as.flatMap f = f a := by
  obtain ⟨before, after, rfl⟩ := List.append_of_mem mem
  have new := (List.nodup_cons.1 (List.nodup_middle.1 distinct)).1
  rw [List.mem_append, not_or] at new
  have first : before.flatMap f = [] := List.flatMap_eq_nil_iff.2 fun b there =>
    others b (List.mem_append_left _ there) fun same => new.1 (same ▸ there)
  have last : after.flatMap f = [] := List.flatMap_eq_nil_iff.2 fun b there =>
    others b (List.mem_append_right _ (List.mem_cons_of_mem _ there)) fun same =>
      new.2 (same ▸ there)
  rw [List.flatMap_append, List.flatMap_cons, first, last, List.nil_append, List.append_nil]

/-- Where the instructions of each qubit are on its own channel of a kind, a channel has the windows
of its qubit. -/
theorem flatMap_windowsOn {kind : ChannelKind} {f : UInt32 → List Instruction}
    (own : ∀ q, ∀ child ∈ f q, child.channels = [⟨kind, q⟩]) {qubits : List UInt32}
    (distinct : qubits.Nodup) (c : Channel) :
    (qubits.flatMap f).flatMap (Instruction.windowsOn c) =
      if c.kind = kind ∧ c.index ∈ qubits then (f c.index).map Instruction.window else [] := by
  have others (q : UInt32) (other : (⟨kind, q⟩ : Channel) ≠ c) :
      (f q).flatMap (Instruction.windowsOn c) = [] :=
    List.flatMap_eq_nil_iff.2 fun child mem => by
      rw [Instruction.windowsOn_of_singleton (own q child mem), if_neg other]
  rw [List.flatMap_assoc]
  split
  · next here =>
      obtain ⟨rfl, mem⟩ := here
      rw [flatMap_eq_of_nodup distinct mem fun q _ ne => others q fun same => ne (same ▸ rfl),
        List.map_eq_flatMap]
      refine List.flatMap_congr fun child mem => ?_
      rw [Instruction.windowsOn_of_singleton (own _ child mem), if_pos rfl]
  · next there =>
      refine List.flatMap_eq_nil_iff.2 fun q mem => others q ?_
      rintro rfl
      exact there ⟨rfl, mem⟩

section Layout

variable {rotated stimulated : ParametricPulse} {qubits : List UInt32}

theorem mem_acquired_iff {c : Channel} : c ∈ Instruction.acquired qubits qubits [] ↔
    (c.kind = .acquire ∨ c.kind = .memorySlot) ∧ c.index ∈ qubits := by
  obtain ⟨kind, index⟩ := c
  simp [Instruction.acquired, and_or_left, and_comm (b := _ ∈ qubits), eq_comm]

theorem windowsOn_acquisition (distinct : qubits.Nodup) (c : Channel) :
    (acquisition qubits).windowsOn c =
      if (c.kind = .acquire ∨ c.kind = .memorySlot) ∧ c.index ∈ qubits
        then [⟨Time.ofSamples rotationDuration, readoutDuration⟩] else [] := by
  have once : (Instruction.acquired qubits qubits []).Nodup :=
    Instruction.nodup_acquired_iff.2 ⟨distinct, distinct, List.nodup_nil⟩
  show List.replicate ((Instruction.acquired qubits qubits []).count c) _ = _
  simp only [once.count, ← mem_acquired_iff]
  split
  · rfl
  · rfl

/-- The windows of a layout on a channel: those of its qubit for the kinds that are in use. -/
theorem windowsOn_layout (distinct : qubits.Nodup) (c : Channel) :
    (layout rotated stimulated qubits).flatMap (Instruction.windowsOn c) =
      (if c.kind = .drive ∧ c.index ∈ qubits
        then [⟨Time.zero, rotated.duration⟩, ⟨Time.ofSamples rotationDuration, 0⟩] else []) ++
      (if c.kind = .measure ∧ c.index ∈ qubits
        then [⟨Time.ofSamples rotationDuration, stimulated.duration⟩] else []) ++
      if (c.kind = .acquire ∨ c.kind = .memorySlot) ∧ c.index ∈ qubits
        then [⟨Time.ofSamples rotationDuration, readoutDuration⟩] else [] := by
  have stimuli : ∀ q, ∀ child ∈ [readout stimulated q], child.channels = [.measure q] :=
    fun q => List.forall_mem_singleton.2 rfl
  rw [layout, List.flatMap_append, List.flatMap_append, List.flatMap_singleton,
    List.map_eq_flatMap, flatMap_windowsOn (fun _ _ => channels_of_mem_rotation) distinct,
    flatMap_windowsOn stimuli distinct, windowsOn_acquisition distinct]
  rfl

theorem length_layout : (layout rotated stimulated qubits).length = 3 * qubits.length + 1 := by
  simp [layout, rotation]
  omega

theorem length_channels_layout :
    ((layout rotated stimulated qubits).flatMap (·.channels)).length = 5 * qubits.length := by
  simp [layout, rotation, readout, acquisition, Instruction.boundAt, Instruction.bound,
    Instruction.acquired, List.flatMap_assoc, List.length_flatMap, Function.comp_def]
  omega

end Layout

/-! ## The indices of a register -/

theorem map_toNat_qubitIndices (numQubits : UInt32) :
    (qubitIndices numQubits).map UInt32.toNat = List.range numQubits.toNat := by
  rw [qubitIndices, List.map_map]
  refine (List.map_congr_left fun i mem => ?_).trans (List.map_id _)
  exact UInt32.toNat_ofNat_of_lt' (Nat.lt_trans (List.mem_range.1 mem) numQubits.toNat_lt)

theorem length_qubitIndices (numQubits : UInt32) :
    (qubitIndices numQubits).length = numQubits.toNat := by
  rw [qubitIndices, List.length_map, List.length_range]

theorem mem_qubitIndices {numQubits qubit : UInt32} :
    qubit ∈ qubitIndices numQubits ↔ qubit < numQubits := by
  have injective : Function.Injective UInt32.toNat := fun _ _ => UInt32.toNat_inj.1
  rw [← List.mem_map_of_injective injective, map_toNat_qubitIndices, List.mem_range,
    UInt32.lt_iff_toNat_lt]

theorem nodup_qubitIndices (numQubits : UInt32) : (qubitIndices numQubits).Nodup := by
  have distinct := List.nodup_range (n := numQubits.toNat)
  rw [← map_toNat_qubitIndices] at distinct
  exact distinct.of_map

/-! ## The readout of a register -/

/-- A register of at least one qubit is laid out: the stop that the stimuli are placed at is the
end of the rotations. -/
theorem exists_rotateAndMeasure (id : ScheduleId) {numQubits : UInt32} (pos : 0 < numQubits)
    {amplitude : Float} {rotated stimulated : ParametricPulse} (made : x90 amplitude = .ok rotated)
    (played : stimulus = .ok stimulated) :
    ∃ s, rotateAndMeasure id numQubits amplitude = .ok s ∧
      s.LaidOut (layout rotated stimulated (qubitIndices numQubits)) := by
  have distinct := nodup_qubitIndices numQubits
  obtain ⟨s, rotations, hs⟩ := exists_foldlM
    (fun done (s : Schedule) => s.LaidOut (done.flatMap (rotation rotated)))
    (fun new h => h.addRotation made new) [] distinct (.new id (some "rotation"))
  have stop : s.stop = Time.ofSamples rotationDuration := by
    have some : (qubitIndices numQubits).flatMap (rotation rotated) ≠ [] :=
      List.ne_nil_of_mem
        (List.mem_flatMap.2 ⟨0, mem_qubitIndices.2 pos, List.mem_cons_self⟩)
    have last := hs.localStop_of_rotations (duration_of_x90 made) some fun child mem => by
      obtain ⟨q, -, mem⟩ := List.mem_flatMap.1 mem
      exact ⟨q, mem⟩
    rw [Schedule.stop, hs.start, last, Time.zero_addClamped]
  -- The second loop adds to what the first one left, with no stimulus there yet.
  rw [← List.append_nil (List.flatMap _ _)] at hs
  obtain ⟨t, stimuli, ht⟩ := exists_foldlM
    (fun done (t : Schedule) => t.LaidOut
      ((qubitIndices numQubits).flatMap (rotation rotated) ++ done.map (readout stimulated)))
    (fun new h => h.addStimulus played new) [] distinct hs
  obtain ⟨acquisition, acquired, u, inserted, hu⟩ := ht.acquire distinct
  refine ⟨u, ?_, hu⟩
  rw [← stop] at stimuli inserted
  refine bind_eq_ok_iff.2 ⟨s, rotations, ?_⟩
  refine bind_eq_ok_iff.2 ⟨t, stimuli, ?_⟩
  exact bind_eq_ok_iff.2 ⟨acquisition, acquired, inserted⟩

/-- Rotations that cannot be built are the fault of the whole. -/
theorem rotateAndMeasure_eq_error (id : ScheduleId) {numQubits : UInt32} (pos : 0 < numQubits)
    {amplitude : Float} {fault : PulseError} (failed : x90 amplitude = .error fault) :
    rotateAndMeasure id numQubits amplitude = .error fault := by
  have first : 0 ∈ qubitIndices numQubits := mem_qubitIndices.2 pos
  obtain ⟨q, rest, qubits⟩ := List.exists_cons_of_ne_nil (List.ne_nil_of_mem first)
  unfold rotateAndMeasure
  rw [qubits]
  dsimp only
  rw [List.foldlM_cons, addRotation, failed]
  rfl

/-- The acquisition is the last to end, together with the stimuli. -/
theorem Schedule.LaidOut.localStop_eq_readout {s : Schedule}
    {rotated stimulated : ParametricPulse} {qubits : List UInt32}
    (h : s.LaidOut (layout rotated stimulated qubits)) (short : rotated.duration = rotationDuration)
    (long : stimulated.duration = readoutDuration) (some : qubits ≠ []) :
    s.localStop = Time.ofSamples 1360 := by
  obtain ⟨reachable, -, children⟩ := h
  have stop (duration : UInt32) := Time.val_later_ofSamples rotationDuration duration
  have stops : (acquisition qubits).stop = Time.ofSamples 1360 :=
    Time.ext (stop readoutDuration)
  have mem : acquisition qubits ∈ s.children :=
    children ▸ List.mem_append_right _ (List.mem_singleton_self _)
  have taken : (acquisition qubits).channels ≠ [] := by
    obtain ⟨q, qubit⟩ := List.exists_mem_of_ne_nil _ some
    exact List.ne_nil_of_mem (mem_acquired_iff.2 ⟨.inl rfl, qubit⟩ : .acquire q ∈ _)
  rw [reachable.sound.localStop_eq mem taken, stops]
  intro child there _
  rw [stops]
  -- Only the rotations and turns are over before the acquisition.
  rw [children, layout, List.mem_append, List.mem_append] at there
  rcases there with (rotation | stimulus) | last
  · obtain ⟨q, -, mem⟩ := List.mem_flatMap.1 rotation
    rw [stop_of_mem_rotation short mem]
    decide
  · obtain ⟨q, -, rfl⟩ := List.mem_map.1 stimulus
    refine Int.le_of_eq ((stop stimulated.duration).trans ?_)
    rw [long]
    rfl
  · rw [List.mem_singleton.1 last, stops]

/-- Rotating and measuring a register of at least one qubit fails if and only if the rotation cannot
be built, and then with its fault.  Otherwise each drive channel has the rotation and, at its end,
the turn; each measure channel has the stimulus, and each acquire channel and memory slot the
acquisition, both from the end of the rotations on; no other channel has anything, and the schedule
ends with its readout. -/
theorem rotateAndMeasure_exact (id : ScheduleId) {numQubits : UInt32} (pos : 0 < numQubits)
    (amplitude : Float) :
    (∀ fault, x90 amplitude = .error fault →
      rotateAndMeasure id numQubits amplitude = .error fault) ∧
    ∀ rotated, x90 amplitude = .ok rotated →
      ∃ s, rotateAndMeasure id numQubits amplitude = .ok s ∧ s.Reachable ∧
        s.children.length = 3 * numQubits.toNat + 1 ∧
        s.occupancy.size = 5 * numQubits.toNat ∧
        (∀ qubit < numQubits,
          s.occupancy.intervals (.drive qubit) = [⟨Time.zero, 160⟩, ⟨Time.ofSamples 160, 0⟩] ∧
          s.occupancy.intervals (.measure qubit) = [⟨Time.ofSamples 160, 1200⟩] ∧
          s.occupancy.intervals (.acquire qubit) = [⟨Time.ofSamples 160, 1200⟩] ∧
          s.occupancy.intervals (.memorySlot qubit) = [⟨Time.ofSamples 160, 1200⟩]) ∧
        (∀ c : Channel, c.kind ∉ [.drive, .measure, .acquire, .memorySlot] ∨
          ¬ c.index < numQubits → s.occupancy.intervals c = []) ∧
        s.localStop = Time.ofSamples 1360 ∧ s.stop = Time.ofSamples 1360 := by
  refine ⟨fun fault failed => rotateAndMeasure_eq_error id pos failed, fun rotated made => ?_⟩
  obtain ⟨stimulated, played, long⟩ := exists_stimulus
  have short := duration_of_x90 made
  obtain ⟨s, done, h⟩ := exists_rotateAndMeasure id pos made played
  have first : 0 ∈ qubitIndices numQubits := mem_qubitIndices.2 pos
  have last := h.localStop_eq_readout short long (List.ne_nil_of_mem first)
  have windows (c : Channel) :=
    (h.intervals_eq c).trans (windowsOn_layout (nodup_qubitIndices numQubits) c)
  refine ⟨s, done, h.reachable, ?_, ?_, fun q lt => ?_, fun c other => ?_, last, ?_⟩
  · rw [h.children, length_layout, length_qubitIndices]
  · rw [h.size_eq, length_channels_layout, length_qubitIndices]
  · simp [windows, mem_qubitIndices, lt, short, long, rotationDuration, readoutDuration]
  · rcases other with unused | above
    · simp only [List.mem_cons, List.not_mem_nil, or_false, not_or] at unused
      simp [windows, unused]
    · simp only [windows, mem_qubitIndices, above, and_false, if_false, List.append_nil]
  · rw [Schedule.stop, h.start, last, Time.zero_addClamped]

/-- Two qubits are rotated at half of the full amplitude and measured; beyond the full amplitude
there is no rotation. -/
theorem rotateAndMeasure_two :
    (0 : UInt32) < 2 ∧
      (∃ s, rotateAndMeasure ⟨⟨0⟩⟩ 2 0.5 = .ok s ∧ s.children.length = 7 ∧ s.occupancy.size = 10 ∧
        s.occupancy.intervals (.drive 1) = [⟨Time.zero, 160⟩, ⟨Time.ofSamples 160, 0⟩] ∧
        s.occupancy.intervals (.memorySlot 1) = [⟨Time.ofSamples 160, 1200⟩] ∧
        s.occupancy.intervals (.drive 2) = [] ∧ s.occupancy.intervals (.control 0) = [] ∧
        s.stop.val = 1360) ∧
      ∃ fault, rotateAndMeasure ⟨⟨0⟩⟩ 2 1.5 = .error fault := by
  have pos : (0 : UInt32) < 2 := by decide
  obtain ⟨rotated, made⟩ := exists_of_isOk (by decide +kernel : (x90 0.5).isOk)
  obtain ⟨s, done, -, length, size, used, unused, -, stop⟩ :=
    (rotateAndMeasure_exact ⟨⟨0⟩⟩ pos 0.5).2 rotated made
  obtain ⟨drive, -, -, slot⟩ := used 1 (by decide)
  refine ⟨pos, ⟨s, done, length, size, drive, slot, unused _ (.inr (by decide)),
    unused _ (.inl (by decide)), congrArg Time.val stop⟩, ?_⟩
  have tooStrong : ¬ (x90 1.5).isOk := by decide +kernel
  cases failed : x90 1.5 with
  | error fault => exact ⟨fault, (rotateAndMeasure_exact ⟨⟨0⟩⟩ pos 1.5).1 fault failed⟩
  | ok pulse =>
      rw [failed] at tooStrong
      exact absurd rfl tooStrong

end QuantumControl.Pulse
