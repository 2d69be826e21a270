import QuantumControl.Proofs.Decimal.Comparison
import QuantumControl.Proofs.Json.Decoding
import QuantumControl.Proofs.Json.Printing
import QuantumControl.Pulse.JsonForm

/-!
# Constraints of parametric pulses

Building a pulse checks it, and what passes is exactly what satisfies the constraints: the
checks refuse what is out of bounds, which for finite parameters is the opposite of being
within (`fault?_eq_none_iff`).  A name takes no part in them.  So the pulses that constructors
and names lead to are those that satisfy the constraints.

A pulse that is read has never been checked.  Its parameters are taken as they are written, so
that reading leads to pulses that no constructor makes.
-/

namespace QuantumControl.Pulse

open Json (Decoder Document)

/-! ## What a pulse has to satisfy -/

/-- What a shape asks of its parameters in a pulse of a given duration. -/
def PulseShape.Fits (duration : UInt32) : PulseShape → Prop
  | gaussian sigma | drag sigma _ => 0 < sigma
  | gaussianSquare sigma width => 0 < sigma ∧ 0 ≤ width ∧ width ≤ duration.toFloat
  | constant => True

/-- For finite parameters no constraint is violated if and only if all of them hold. -/
theorem PulseShape.violation?_eq_none_iff {duration : UInt32} {shape : PulseShape}
    (finite : ∀ e ∈ shape.parameters, e.2.isFinite) :
    shape.violation? duration = none ↔ shape.Fits duration := by
  have zero : (0 : Float).isNaN = false := rfl
  have comparable (name : String) {x : Float} (mem : (name, x) ∈ shape.parameters) :
      x.isNaN = false := Decimal.isNaN_of_isFinite (finite (name, x) mem)
  cases shape with
  | gaussian sigma | drag sigma _ =>
      have hs : sigma.isNaN = false := comparable "sigma" (by simp [parameters])
      simp [violation?, Fits, Decimal.not_le_iff_lt hs zero]
  | gaussianSquare sigma width =>
      have hs : sigma.isNaN = false := comparable "sigma" (by simp [parameters])
      have hw : width.isNaN = false := comparable "width" (by simp [parameters])
      -- every bound turned into the comparison that the check makes
      rw [Fits, ← Decimal.not_le_iff_lt hs zero, ← Decimal.not_lt_iff_le hw zero,
        ← Decimal.not_lt_iff_le (Decimal.isNaN_toFloat duration) hw, violation?]
      split_ifs <;> simp_all
  | constant => simp [violation?, Fits]

namespace ParametricPulse

/-- The constraints of a pulse: all parameters are finite, they fit its shape, and an amplitude that
is limited has no modulus above one. -/
structure Sound (p : ParametricPulse) : Prop where
  amplitude : p.amplitude.isFinite
  parameters : ∀ e ∈ p.shape.parameters, e.2.isFinite
  fits : p.shape.Fits p.duration
  limit : p.limited → ¬ 1 < p.amplitude.modulus

section Checking

variable {p : ParametricPulse}

theorem allFinite_iff :
    p.allFinite ↔ p.amplitude.isFinite ∧ ∀ e ∈ p.shape.parameters, e.2.isFinite := by
  simp [allFinite]

/-- No check fails if and only if all constraints hold. -/
theorem fault?_eq_none_iff : p.fault? = none ↔ p.Sound := by
  by_cases finite : p.allFinite
  · obtain ⟨amplitude, parameters⟩ := allFinite_iff.1 finite
    have fits : p.shape.violation? p.duration = none ↔ p.shape.Fits p.duration :=
      PulseShape.violation?_eq_none_iff parameters
    have sound : p.Sound ↔ p.shape.violation? p.duration = none ∧
        (p.limited → ¬ 1 < p.amplitude.modulus) :=
      ⟨fun h => ⟨fits.2 h.fits, h.limit⟩, fun h => ⟨amplitude, parameters, fits.1 h.1, h.2⟩⟩
    rw [sound, fault?, finite]
    cases p.shape.violation? p.duration with
    | some constraint => simp
    | none => simp [Complex.exceedsUnit]
  · refine ⟨fun none => ?_, fun h => absurd (allFinite_iff.2 ⟨h.amplitude, h.parameters⟩) finite⟩
    simp [fault?, finite] at none

theorem build_eq_ok_iff {shape : PulseShape} {duration : UInt32} {amplitude : Complex}
    {limited : Bool} :
    build shape duration amplitude limited = .ok p ↔
      p = ⟨shape, duration, amplitude, none, limited⟩ ∧ p.Sound := by
  rw [build]
  cases fault : fault? ⟨shape, duration, amplitude, none, limited⟩ with
  | none =>
      have sound := fault?_eq_none_iff.1 fault
      simp only [Except.ok.injEq]
      exact ⟨fun same => ⟨same.symm, same ▸ sound⟩, fun same => same.1.symm⟩
  | some broken =>
      refine ⟨nofun, ?_⟩
      rintro ⟨rfl, sound⟩
      rw [fault?_eq_none_iff.2 sound] at fault
      cases fault

/-- A name takes no part in the constraints. -/
theorem sound_withName_iff {name : String} : (p.withName name).Sound ↔ p.Sound :=
  ⟨fun h => ⟨h.1, h.2, h.3, h.4⟩, fun h => ⟨h.1, h.2, h.3, h.4⟩⟩

end Checking

end ParametricPulse

/-! ## Reading back -/

theorem word32_wordToJson (n : UInt32) : Decoder.word32 (wordToJson n).toDocument = some n := by
  have below : n.toNat < UInt32.size := n.toNat_lt
  have inside : (0 : Int) ≤ n.toNat ∧ (n.toNat : Int) ≤ (UInt32.size : Int) - 1 := by omega
  simp only [Decoder.word32, Decoder.below, wordToJson, Json.toDocument, Decoder.int]
  rw [if_pos inside]
  simp

theorem float_ofFloat {x : Float} (finite : x.isFinite) :
    Decoder.float (Json.ofFloat x).toDocument = some x := by
  rw [Json.ofFloat, if_pos finite]
  rfl

theorem Complex.decode_toJson {z : Complex} (finite : z.isFinite) :
    decode z.toJson.toDocument = some z := by
  obtain ⟨re, im⟩ := (Bool.and_eq_true _ _).mp finite
  simp [decode, toJson, Json.toDocument, Json.toItems, Decoder.pair, float_ofFloat re,
    float_ofFloat im]

theorem absent_ofOption (name : Option String) :
    Decoder.absent Decoder.string (some (Json.ofOption .string name).toDocument) = some name := by
  cases name <;> rfl

namespace PulseShape

/-- A record of finite doubles is read back. -/
theorem doubles_ofMembers {es : List (String × Float)} (distinct : (es.map Prod.fst).Nodup)
    (finite : ∀ e ∈ es, e.2.isFinite) :
    doubles (es.map Prod.fst)
        (Json.ofMembers (es.map fun e => (e.1, Json.ofFloat e.2))).toDocument =
      some (es.map Prod.snd) := by
  have written : ((es.map fun e => (e.1, Json.ofFloat e.2)).map Prod.fst).Nodup := by
    rwa [List.map_map]
  rw [doubles, Decoder.fields_ofMembers written, Option.bind_eq_bind, Option.bind_some,
    Decoder.mapM_eq_some_iff, List.map_map, List.forall₂_map_left_iff, List.forall₂_map_right_iff]
  refine List.forall₂_same.2 fun e mem => ?_
  rw [Function.comp_apply, Table.find_map, Table.find_eq_some_of_mem mem distinct]
  exact float_ofFloat (finite e mem)

theorem decode_toJson {shape : PulseShape} (finite : ∀ e ∈ shape.parameters, e.2.isFinite) :
    decode shape.toJson.toDocument = some shape := by
  have single (name : String) (body : Json) :
      Decoder.alternative (Json.ofMembers [(name, body)]).toDocument =
        some (name, some body.toDocument) := rfl
  have distinct : (shape.parameters.map Prod.fst).Nodup := by cases shape <;> simp [parameters]
  have read := doubles_ofMembers distinct finite
  cases shape with
  | constant => rfl
  | gaussian | gaussianSquare | drag =>
      simp only [parameters, List.map_cons, List.map_nil] at read
      simp [toJson, name, parameters, decode, single, read]

end PulseShape

namespace ParametricPulse

/-- The parameters are read as they were written, whether or not they satisfy the constraints. -/
theorem decode_toJson {p : ParametricPulse} (finite : p.allFinite) :
    decode p.toJson.toDocument = some p := by
  obtain ⟨amplitude, parameters⟩ := allFinite_iff.1 finite
  have fields : Decoder.fields ["shape", "duration", "amp", "name", "limit_amplitude"]
      p.toJson.toDocument =
        some [some p.shape.toJson.toDocument, some (wordToJson p.duration).toDocument,
          some p.amplitude.toJson.toDocument, some (Json.ofOption .string p.name).toDocument,
          some (.bool p.limited)] :=
    Decoder.fields_ofMembers (by simp) _
  rw [decode, fields]
  simp only [Option.bind_eq_bind, Option.bind_some, Decoder.required,
    PulseShape.decode_toJson parameters, word32_wordToJson, Complex.decode_toJson amplitude,
    absent_ofOption]
  rfl

theorem decode_command_toJson {p : ParametricPulse} (finite : p.allFinite) :
    Command.decode (Command.parametric p).toJson.toDocument = some (.parametric p) := by
  have single : Decoder.alternative (Command.parametric p).toJson.toDocument =
      some ("Parametric", some p.toJson.toDocument) := rfl
  simp [Command.decode, single, decode_toJson finite]

/-- The doubles that a pulse is written with. -/
def doubles (p : ParametricPulse) : List Float :=
  p.amplitude.re :: p.amplitude.im :: p.shape.parameters.map Prod.snd

theorem legible_toJson {p : ParametricPulse} (finite : p.allFinite)
    (exact : ∀ x ∈ p.doubles, Json.Exact x) : Json.Legible p.toJson := by
  obtain ⟨amplitude, parameters⟩ := allFinite_iff.1 finite
  obtain ⟨re, im⟩ := (Bool.and_eq_true _ _).mp amplitude
  have float {x : Float} (finite : x.isFinite) (mem : x ∈ p.doubles) :
      Json.Legible (Json.ofFloat x) := by
    rw [Json.ofFloat, if_pos finite]
    exact .float finite (exact x mem)
  have body : Json.Legible
      (Json.ofMembers (p.shape.parameters.map fun e => (e.1, Json.ofFloat e.2))) := by
    refine Json.legible_ofMembers fun m mem => ?_
    obtain ⟨e, listed, rfl⟩ := List.mem_map.1 mem
    exact float (parameters e listed) <| List.mem_cons_of_mem _ <| List.mem_cons_of_mem _ <|
      List.mem_map_of_mem listed
  refine Json.legible_ofMembers fun m mem => ?_
  simp only [List.mem_cons, List.not_mem_nil, or_false] at mem
  rcases mem with rfl | rfl | rfl | rfl | rfl
  · cases shape : p.shape with
    | constant => exact .string _
    | gaussian | gaussianSquare | drag =>
        rw [shape] at body
        exact Json.legible_ofMembers (by simpa using body)
  · exact .int (Json.scan_toString (Nat.lt_trans p.duration.toNat_lt (by decide)))
  · refine .array fun v mem => ?_
    simp only [List.mem_cons, List.not_mem_nil, or_false] at mem
    rcases mem with rfl | rfl
    · exact float re (by simp [doubles])
    · exact float im (by simp [doubles])
  · cases p.name with
    | none => exact .null
    | some name => exact .string name
  · exact .bool p.limited

/-! ## All ways to pulses -/

/-- The constructors with their arguments. -/
inductive Construction where
  | new (shape : PulseShape) (duration : UInt32) (amplitude : Complex)
  | withoutAmplitudeLimit (shape : PulseShape) (duration : UInt32) (amplitude : Complex)
  | gaussian (duration : UInt32) (amplitude : Complex) (sigma : Float)
  | gaussianSquare (duration : UInt32) (amplitude : Complex) (sigma : Float) (top : FlatTop)
  | drag (duration : UInt32) (amplitude : Complex) (sigma beta : Float)
  | constant (duration : UInt32) (amplitude : Complex)

def make : Construction → Except PulseError ParametricPulse
  | .new shape duration amplitude => new shape duration amplitude
  | .withoutAmplitudeLimit shape duration amplitude =>
      withoutAmplitudeLimit shape duration amplitude
  | .gaussian duration amplitude sigma => gaussian duration amplitude sigma
  | .gaussianSquare duration amplitude sigma top => gaussianSquare duration amplitude sigma top
  | .drag duration amplitude sigma beta => drag duration amplitude sigma beta
  | .constant duration amplitude => constant duration amplitude

/-- The pulse that a constructor is asked for. -/
def Construction.asked : Construction → ParametricPulse
  | new shape duration amplitude => ⟨shape, duration, amplitude, none, true⟩
  | withoutAmplitudeLimit shape duration amplitude => ⟨shape, duration, amplitude, none, false⟩
  | gaussian duration amplitude sigma => ⟨.gaussian sigma, duration, amplitude, none, true⟩
  | gaussianSquare duration amplitude sigma top =>
      ⟨.gaussianSquare sigma (top.widthWithin duration sigma), duration, amplitude, none, true⟩
  | drag duration amplitude sigma beta => ⟨.drag sigma beta, duration, amplitude, none, true⟩
  | constant duration amplitude => ⟨.constant, duration, amplitude, none, true⟩

/-- The pulses that constructors make, with or without a name. -/
inductive Built : ParametricPulse → Prop
  | made {p : ParametricPulse} (how : Construction) (made : make how = .ok p) : Built p
  | named {p : ParametricPulse} (name : String) (built : Built p) : Built (p.withName name)

/-- The pulses that are read from a text, alone or inside a command. -/
def Read (p : ParametricPulse) : Prop :=
  ∃ text, (Document.read? text).bind decode = some p ∨
    (Document.read? text).bind Command.decode = some (.parametric p)

section Ways

variable {p : ParametricPulse}

/-- A constructor makes the pulse that it is asked for, if this one satisfies the constraints. -/
theorem make_eq_ok_iff {how : Construction} : make how = .ok p ↔ p = how.asked ∧ p.Sound := by
  cases how <;> exact build_eq_ok_iff

theorem Built.sound (built : Built p) : p.Sound := by
  induction built with
  | made _ made => exact (make_eq_ok_iff.1 made).2
  | named _ _ ih => exact sound_withName_iff.2 ih

/-- Any pulse that satisfies the constraints is made with or without the limit, and then named. -/
theorem Sound.built (sound : p.Sound) : Built p := by
  obtain ⟨shape, duration, amplitude, name, limited⟩ := p
  have unnamed : Sound ⟨shape, duration, amplitude, none, limited⟩ :=
    ⟨sound.1, sound.2, sound.3, sound.4⟩
  have made : Built ⟨shape, duration, amplitude, none, limited⟩ := by
    cases limited with
    | true => exact .made (.new shape duration amplitude) (make_eq_ok_iff.2 ⟨rfl, unnamed⟩)
    | false =>
        exact .made (.withoutAmplitudeLimit shape duration amplitude)
          (make_eq_ok_iff.2 ⟨rfl, unnamed⟩)
  cases name with
  | none => exact made
  | some name => exact .named name made

/-- A pulse is read from the text that it is written as, if its doubles are scanned exactly. -/
theorem read_of_exact (finite : p.allFinite) (exact : ∀ x ∈ p.doubles, Json.Exact x) : Read p := by
  refine ⟨p.toJson.compact, .inl ?_⟩
  rw [Json.read?_compact (legible_toJson finite exact)]
  exact decode_toJson finite

end Ways

/-- A pulse is what a constructor makes if and only if it is the one that was asked for and
satisfies the constraints of its shape and the limit of its amplitude, and it is what constructors
and names together lead to if and only if it satisfies them.  Reading checks none of this: whatever
its finite parameters are, a pulse is read back from what it is written as, alone and inside a
command. -/
theorem built_iff_sound_and_read (p : ParametricPulse) :
    (∀ how, make how = .ok p ↔ p = how.asked ∧ p.Sound) ∧
    (Built p ↔ p.Sound) ∧
    (p.allFinite →
      decode p.toJson.toDocument = some p ∧
      Command.decode (Command.parametric p).toJson.toDocument = some (.parametric p) ∧
      ((∀ x ∈ p.doubles, Json.Exact x) → Read p)) :=
  ⟨fun _ => make_eq_ok_iff, ⟨Built.sound, Sound.built⟩, fun finite =>
    ⟨decode_toJson finite, decode_command_toJson finite, read_of_exact finite⟩⟩

/-- A Gaussian pulse of negative sigma is read and not built; one of positive sigma is built. -/
theorem built_iff_sound_and_read_gaussian :
    let p : ParametricPulse := ⟨.gaussian (-1), 10, ⟨5, 0⟩, none, true⟩
    Read p ∧ ¬ Built p ∧ ∃ q, make (.gaussian 160 ⟨0.2, 0⟩ 40) = .ok q := by
  intro p
  obtain ⟨-, building, reading⟩ := built_iff_sound_and_read p
  have exact : ∀ x ∈ p.doubles, Json.Exact x := by
    have amplitude : Decimal.listed 5 = "5.0" := by decide +kernel
    have zero : Decimal.listed 0 = "0.0" := by decide +kernel
    have sigma : Decimal.listed (-1) = "-1.0" := by decide +kernel
    intro x mem
    simp only [p, doubles, PulseShape.parameters, List.map_cons, List.map_nil, List.mem_cons,
      List.not_mem_nil, or_false] at mem
    rcases mem with rfl | rfl | rfl
    · exact @Json.exact_of_toFloat? _ ⟨false, ['5'], ['0'], none⟩ (by rw [amplitude]; rfl) rfl
        (by decide +kernel)
    · exact @Json.exact_of_toFloat? _ ⟨false, ['0'], ['0'], none⟩ (by rw [zero]; rfl) rfl
        (by decide +kernel)
    · exact @Json.exact_of_toFloat? _ ⟨true, ['1'], ['0'], none⟩ (by rw [sigma]; rfl) rfl
        (by decide +kernel)
  have negative : ¬ 0 < (-1 : Float) := by decide +kernel
  have finite : p.allFinite := by decide +kernel
  refine ⟨(reading finite).2.2 exact, fun built => negative (building.1 built).fits, ?_⟩
  obtain ⟨making, -, -⟩ :=
    built_iff_sound_and_read (Construction.asked (.gaussian 160 ⟨0.2, 0⟩ 40))
  refine ⟨_, (making _).2 ⟨rfl, by decide +kernel, by decide +kernel, ?_, ?_⟩⟩
  · show 0 < (40 : Float)
    decide +kernel
  · intro _
    show ¬ 1 < Complex.modulus ⟨0.2, 0⟩
    decide +kernel

/-- A Gaussian pulse of negative sigma is read, and with an amplitude of five although it is
limited. -/
theorem read_overdriven :
    let text := "\x7b\"shape\":\x7b\"Gaussian\":\x7b\"sigma\":-1\x7d\x7d,\"duration\":10," ++
      "\"amp\":[5,0],\"name\":null,\"limit_amplitude\":true\x7d"
    let command := "\x7b\"Parametric\":" ++ (text ++ "\x7d")
    let p : ParametricPulse :=
      ⟨.gaussian (Float.ofInt (-1)), 10, ⟨Float.ofInt 5, Float.ofInt 0⟩, none, true⟩
    (Document.read? text).bind decode = some p ∧
      (Document.read? command).bind Command.decode = some (.parametric p) ∧
      ¬ p.shape.Fits p.duration ∧ p.limited ∧ 1 < p.amplitude.modulus ∧
      ¬ ∀ q, Read q → q.Sound := by
  intro text command p
  have alone : (Document.read? text).bind decode = some p := by
    simp only [text, Document.read?, String.toList_append]
    rfl
  have inside : (Document.read? command).bind Command.decode = some (.parametric p) := by
    simp only [command, text, Document.read?, String.toList_append]
    rfl
  have negative : ¬ 0 < Float.ofInt (-1) := by decide +kernel
  refine ⟨alone, inside, negative, rfl, by decide +kernel, fun all => ?_⟩
  exact negative (all p ⟨text, .inl alone⟩).fits

end ParametricPulse

end QuantumControl.Pulse
