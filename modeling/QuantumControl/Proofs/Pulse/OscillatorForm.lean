import Mathlib.Data.List.Perm.Basic
import QuantumControl.Proofs.Json.Decoding
import QuantumControl.Proofs.Json.Printing
import QuantumControl.Proofs.Pulse.Oscillator
import QuantumControl.Pulse.JsonForm

/-!
# Reading and writing overrides

There are two ways to overrides: calls, and a document that names channels.  Both end in the
same check, so that every configuration holds only what can be set (`Obtainable.valid`).

Names are looked up before the check, and of all names of one channel the last counts: a
document is accepted if and only if all its names are read and what is left for each channel can
be set (`exists_decode_iff`).  Written overrides name each channel once, so that in any order
they are read back.
-/

namespace QuantumControl.Pulse.LoConfig

open Json (Decoder Document Token)

/-! ## Reading -/

/-- Overrides that are set one after the other are accepted if all of them can be set. -/
theorem ofList_eq_ok_iff {es : List (Channel × Float)} {config : LoConfig} :
    ofList es = .ok config ↔
      (∀ e ∈ es, Settable e.1 e.2) ∧ config = ⟨Sorted.ofList es⟩ := by
  have onto (start : LoConfig) :
      es.foldlM (fun config e => config.set e.1 e.2) start = .ok config ↔
        (∀ e ∈ es, Settable e.1 e.2) ∧
          config = ⟨es.foldl (fun sorted e => Sorted.insert e.1 e.2 sorted) start.overrides⟩ := by
    induction es generalizing start with
    | nil => simp [pure, Except.pure, eq_comm]
    | cons e es ih =>
        rw [List.foldlM_cons, List.forall_mem_cons, List.foldl_cons]
        by_cases h : Settable e.1 e.2
        · rw [set_of_settable h, and_iff_right h]
          exact ih _
        · obtain ⟨fault, failed⟩ := exists_set_eq_error start h
          rw [failed]
          exact ⟨nofun, fun settable => absurd settable.1.1 h⟩
  exact onto empty

section Decoding

variable {entries : List (String × Float)} {overrides : List (Channel × Float)}

/-- A document that is an object of numbers by name, with these members in this order. -/
def Lists (document : Document) (entries : List (String × Float)) : Prop :=
  ∃ ms, document = .object ms ∧
    List.Forall₂ (fun m e => m.1 = some e.1 ∧ Decoder.IsDouble m.2 e.2) ms entries

/-- The last number under a name of a channel. -/
def lastNamed (c : Channel) (entries : List (String × Float)) : Option Float :=
  (entries.filter fun e => Channel.ofName? e.1 = some c).getLast?.map Prod.snd

/-- Every entry with the channel that it names. -/
def Named (entries : List (String × Float)) (overrides : List (Channel × Float)) : Prop :=
  List.Forall₂ (fun e o => Channel.ofName? e.1 = some o.1 ∧ e.2 = o.2) entries overrides

theorem exists_named_iff :
    (∃ overrides, Named entries overrides) ↔ ∀ e ∈ entries, ∃ c, Channel.parse e.1 = .ok c := by
  simp only [Channel.parse_eq_ok_iff, ← Channel.ofName?_eq_some_iff]
  induction entries with
  | nil => exact ⟨fun _ => nofun, fun _ => ⟨[], .nil⟩⟩
  | cons e es ih =>
      rw [List.forall_mem_cons, ← ih]
      constructor
      · rintro ⟨_, _ | ⟨first, rest⟩⟩
        exact ⟨⟨_, first.1⟩, ⟨_, rest⟩⟩
      · rintro ⟨⟨c, named⟩, ⟨os, rest⟩⟩
        exact ⟨(c, e.2) :: os, .cons ⟨named, rfl⟩ rest⟩

/-- What is left for a channel is the last number under one of its names. -/
theorem Named.find_ofList (named : Named entries overrides) (c : Channel) :
    Table.find c (Sorted.ofList overrides) = lastNamed c entries := by
  rw [Sorted.find_ofList, Table.find_reverse, lastNamed, ← List.getLast?_map, ← List.getLast?_map]
  congr 1
  induction named with
  | nil => rfl
  | @cons e o es os first _ ih =>
      by_cases here : o.1 = c
      · simpa [here, first.1, first.2] using ih
      · simpa [here, first.1] using ih

theorem members_float_eq_some_iff {document : Document} :
    Decoder.members Decoder.float document = some entries ↔ Lists document entries := by
  simp only [Decoder.members_eq_some_iff, Decoder.float_eq_some_iff, Lists]

theorem mapM_ofName?_eq_some_iff :
    entries.mapM (fun e => (Channel.ofName? e.1).map fun c => (c, e.2)) = some overrides ↔
      Named entries overrides := by
  rw [Decoder.mapM_eq_some_iff, Named]
  simp only [Option.map_eq_some_iff, Prod.ext_iff]
  simp

theorem decode_eq_some_iff {document : Document} {config : LoConfig} :
    decode document = some config ↔
      ∃ entries overrides, Lists document entries ∧ Named entries overrides ∧
        (∀ e ∈ Sorted.ofList overrides, Settable e.1 e.2) ∧
        config = ⟨Sorted.ofList overrides⟩ := by
  have toOption (answer : Except PulseError LoConfig) :
      answer.toOption = some config ↔ answer = .ok config := by
    cases answer <;> simp [Except.toOption]
  -- overrides are sorted twice: as a table of channels, and again as they are set in its order
  have sorted (overrides : List (Channel × Float)) :
      Sorted.ofList (Sorted.ofList overrides) = Sorted.ofList overrides :=
    (Sorted.ascending_ofList overrides).ofList_perm (.refl _)
  simp only [decode, Option.bind_eq_bind, Option.bind_eq_some_iff, members_float_eq_some_iff,
    mapM_ofName?_eq_some_iff, toOption, ofList_eq_ok_iff, sorted]
  simp only [exists_and_left]

theorem get?_eq_find (config : LoConfig) (c : Channel) :
    config.get? c = Table.find c config.overrides :=
  Table.map_snd_find? c config.overrides

theorem settable_iff {c : Channel} {x : Float} :
    Settable c x ↔ ∀ config : LoConfig, ∃ changed, config.set c x = .ok changed := by
  simp only [set_eq_ok_iff]
  exact ⟨fun h _ => ⟨_, h, rfl⟩, fun h => (h empty).choose_spec.1⟩

/-- A document lists its numbers in one way. -/
theorem Lists.unique {document : Document} {others : List (String × Float)}
    (lists : Lists document entries) (same : Lists document others) : others = entries := by
  rw [← members_float_eq_some_iff] at lists same
  exact Option.some.inj (same.symm.trans lists)

/-- An object of numbers is accepted if and only if its names are read and what is left for each
channel can be set. -/
theorem exists_decode_iff {document : Document}
    (lists : Lists document entries) :
    (∃ config, decode document = some config) ↔
      (∀ e ∈ entries, ∃ c, Channel.parse e.1 = .ok c) ∧
        ∀ c x, lastNamed c entries = some x → Settable c x := by
  have each {overrides : List (Channel × Float)} (named : Named entries overrides) :
      (∀ e ∈ Sorted.ofList overrides, Settable e.1 e.2) ↔
        ∀ c x, lastNamed c entries = some x → Settable c x := by
    simp only [← named.find_ofList, (Sorted.ascending_ofList overrides).find_eq_some_iff,
      Prod.forall]
  rw [← exists_named_iff]
  constructor
  · rintro ⟨config, accepted⟩
    obtain ⟨others, overrides, same, named, settable, -⟩ := decode_eq_some_iff.1 accepted
    obtain rfl := lists.unique same
    exact ⟨⟨overrides, named⟩, (each named).1 settable⟩
  · rintro ⟨⟨overrides, named⟩, settable⟩
    exact ⟨_, decode_eq_some_iff.2 ⟨_, overrides, lists, named, (each named).2 settable, rfl⟩⟩

theorem get?_of_decode {document : Document}
    (lists : Lists document entries) {config : LoConfig} (accepted : decode document = some config)
    (c : Channel) : config.get? c = lastNamed c entries := by
  obtain ⟨others, overrides, same, named, -, rfl⟩ := decode_eq_some_iff.1 accepted
  obtain rfl := lists.unique same
  rw [get?_eq_find, named.find_ofList]

end Decoding

/-! ## All ways to overrides -/

/-- The configurations that calls and documents lead to. -/
inductive Obtainable : LoConfig → Prop
  | empty : Obtainable empty
  | after {config : LoConfig} (call : Call) (before : Obtainable config) :
      Obtainable (config.after call)
  | decoded {document : Document} {config : LoConfig} (accepted : decode document = some config) :
      Obtainable config

theorem obtainable_play (calls : List Call) : Obtainable (play calls) := by
  have onwards {config : LoConfig} (obtained : Obtainable config) :
      Obtainable (calls.foldl after config) := by
    induction calls generalizing config with
    | nil => exact obtained
    | cons call calls ih => exact ih (.after call obtained)
  exact onwards .empty

/-- Overrides in the order of the channels, all of which can be set. -/
structure Valid (config : LoConfig) : Prop where
  ascending : Sorted.Ascending config.overrides
  settable : ∀ e ∈ config.overrides, Settable e.1 e.2

theorem Valid.after {config : LoConfig} (valid : Valid config) (call : Call) :
    Valid (config.after call) := by
  by_cases h : Settable call.channel call.frequency
  · rw [after_of_settable h]
    refine ⟨valid.ascending.alter _ _, fun e mem => ?_⟩
    have found := ((valid.ascending.alter _ _).find_eq_some_iff).2 mem
    rw [valid.ascending.find_alter] at found
    split at found
    · next here =>
        have value : call.frequency = e.2 := Option.some.inj found
        rwa [here, ← value]
    · exact valid.settable e (valid.ascending.find_eq_some_iff.1 found)
  · rwa [after_of_not_settable h]

theorem Obtainable.valid {config : LoConfig} (obtained : Obtainable config) : Valid config := by
  induction obtained with
  | empty => exact ⟨Sorted.ascending_nil, nofun⟩
  | after call _ ih => exact ih.after call
  | decoded accepted =>
      obtain ⟨_, overrides, -, -, settable, rfl⟩ := decode_eq_some_iff.1 accepted
      exact ⟨Sorted.ascending_ofList overrides, settable⟩

/-! ## Writing -/

/-- The overrides as members of an object. -/
def members (config : LoConfig) : List (String × Json) :=
  config.overrides.map fun e => (e.1.name, .float e.2)

/-- The members are written in the order of their names. -/
theorem Valid.exists_toJson_eq {config : LoConfig} (valid : Valid config) :
    ∃ ms, config.toJson = .object ms ∧ ms.Perm config.members := by
  have written : (config.overrides.map fun e => (e.1.name, Json.ofFloat e.2)) =
      config.members := by
    refine List.map_congr_left fun e mem => ?_
    rw [Json.ofFloat, if_pos (valid.settable e mem).finite]
  have distinct : (config.members.map Prod.fst).Nodup := by
    have names := valid.ascending.nodup.map Channel.name_injective
    rw [List.map_map] at names
    rwa [members, List.map_map]
  exact ⟨_, by rw [toJson, written, Json.ofMembers], Sorted.ofList_perm_of_nodup distinct⟩

/-- Members in any order are read back. -/
theorem Valid.decode_members {config : LoConfig} (valid : Valid config)
    {ms : List (String × Json)} (perm : ms.Perm config.members) :
    decode (Json.object ms).toDocument = some config := by
  obtain ⟨es, rfl, order⟩ : ∃ es : List (Channel × Float),
      ms = es.map (fun e => (e.1.name, Json.float e.2)) ∧ es.Perm config.overrides :=
    (congrFun₂ (List.eq_map_comp_perm _) ms config.overrides).mpr perm
  refine decode_eq_some_iff.2 ⟨es.map fun e => (e.1.name, e.2), es, ?_, ?_, ?_, ?_⟩
  · refine ⟨_, by rw [Json.toDocument, Json.toKeyed_eq_map, List.map_map], ?_⟩
    rw [List.forall₂_map_left_iff, List.forall₂_map_right_iff]
    exact List.forall₂_same.2 fun e _ => ⟨rfl, .float e.2⟩
  · rw [Named, List.forall₂_map_left_iff]
    exact List.forall₂_same.2 fun e _ => ⟨e.1.ofName?_name, rfl⟩
  · rw [valid.ascending.ofList_perm order]
    exact valid.settable
  · rw [valid.ascending.ofList_perm order]

/-- The text of members in any order is read back, as far as their numbers are. -/
theorem Valid.read_members {config : LoConfig} (valid : Valid config)
    (exact : ∀ e ∈ config.overrides, Json.Exact e.2) {ms : List (String × Json)}
    (perm : ms.Perm config.members) :
    (Document.read? (Json.object ms).compact).bind decode = some config := by
  have legible : Json.Legible (.object ms) := by
    refine .object fun m mem => ?_
    obtain ⟨e, written, rfl⟩ := List.mem_map.1 (perm.mem_iff.1 mem)
    exact .float (valid.settable e written).finite (exact e written)
  rw [Json.read?_compact legible]
  exact valid.decode_members perm

/-! ## Main statement -/

/-- Every configuration that calls and documents lead to, in any mix, holds finite positive
frequencies of drive and measure channels only; a call that fails leaves it as it was.  An object of
numbers by name is accepted if and only if every name is that of a channel and the last number under
the names of each channel is one that can be set, and then these are the overrides; any other
document is refused.  Every such configuration is read back from the object that it is written as,
in whatever order the members are, and from its text if its numbers are printed and scanned
exactly. -/
theorem obtainable_round_trip :
    (∀ (config : LoConfig) (call : Call) fault,
      config.set call.channel call.frequency = .error fault → config.after call = config) ∧
    (∀ config, Obtainable config → ∀ e ∈ config.overrides,
      (e.1.kind = .drive ∨ e.1.kind = .measure) ∧ e.2.isFinite ∧ 0 < e.2) ∧
    (∀ document entries, Lists document entries →
      ((∃ config, decode document = some config) ↔
        (∀ e ∈ entries, ∃ c, Channel.parse e.1 = .ok c) ∧
          ∀ c x, lastNamed c entries = some x →
            ∀ config : LoConfig, ∃ changed, config.set c x = .ok changed) ∧
      ∀ config, decode document = some config → ∀ c, config.get? c = lastNamed c entries) ∧
    (∀ document, (∀ entries, ¬ Lists document entries) → decode document = none) ∧
    ∀ config, Obtainable config →
      decode config.toJson.toDocument = some config ∧
      (∀ ms : List (String × Json), ms.Perm config.members →
        decode (Json.object ms).toDocument = some config) ∧
      ((∀ e ∈ config.overrides, Json.Exact e.2) →
        (Document.read? config.toJson.compact).bind decode = some config ∧
        ∀ ms : List (String × Json), ms.Perm config.members →
          (Document.read? (Json.object ms).compact).bind decode = some config) := by
  refine ⟨?_, ?_, ?_, ?_, ?_⟩
  · intro config call fault failed
    refine after_of_not_settable fun settable => ?_
    rw [set_of_settable settable] at failed
    cases failed
  · intro config obtained e mem
    have settable := obtained.valid.settable e mem
    exact ⟨settable.oscillator, settable.finite, settable.positive⟩
  · intro document entries lists
    simp only [← settable_iff]
    exact ⟨exists_decode_iff lists, fun config accepted => get?_of_decode lists accepted⟩
  · intro document other
    refine Option.eq_none_iff_forall_not_mem.2 fun config accepted => ?_
    obtain ⟨entries, -, lists, -⟩ := decode_eq_some_iff.1 accepted
    exact other entries lists
  · intro config obtained
    obtain ⟨ms, written, perm⟩ := obtained.valid.exists_toJson_eq
    refine ⟨?_, fun ms perm => obtained.valid.decode_members perm, fun exact => ⟨?_, ?_⟩⟩
    · rw [written]
      exact obtained.valid.decode_members perm
    · rw [written]
      exact obtained.valid.read_members exact perm
    · exact fun ms perm => obtained.valid.read_members exact perm

/-- Overrides that were set on two channels are read back from their text, although a call for an
acquire channel failed, and of two names of one channel the last counts. -/
theorem obtainable_round_trip_tuned :
    let tuned := play [⟨true, .drive 10, 5.1e9⟩, ⟨false, .measure 1, 6.9e9⟩]
    let renamed : Document := .object [(some "d00", .number (.float 4.9e9)),
      (some "d+0", .number (.int 5000000000))]
    tuned.after ⟨true, .acquire 0, 5e9⟩ = tuned ∧
    (∃ config, decode renamed = some config ∧ config.get? (.drive 0) = some 5e9) ∧
    decode (.array []) = none ∧
    (Document.read? tuned.toJson.compact).bind decode = some tuned := by
  intro tuned renamed
  obtain ⟨failing, -, reading, other, writing⟩ := obtainable_round_trip
  have lists : Lists renamed [("d00", 4.9e9), ("d+0", Float.ofInt 5000000000)] :=
    ⟨_, rfl, .cons ⟨rfl, .float _⟩ (.cons ⟨rfl, .int _⟩ .nil)⟩
  have zero : Channel.ofName? "d00" = some (.drive 0) := rfl
  have signed : Channel.ofName? "d+0" = some (.drive 0) := rfl
  have exact : ∀ e ∈ tuned.overrides, Json.Exact e.2 := by
    have first : Decimal.listed 5.1e9 = "5100000000.0" := by decide +kernel
    have second : Decimal.listed 6.9e9 = "6900000000.0" := by decide +kernel
    have sorted : tuned.overrides = [(.drive 10, 5.1e9), (.measure 1, 6.9e9)] := rfl
    rw [sorted]
    intro e mem
    simp only [List.mem_cons, List.not_mem_nil, or_false] at mem
    rcases mem with rfl | rfl
    · exact @Json.exact_of_toFloat? _ ⟨false, "5100000000".toList, ['0'], none⟩
        (by rw [first]; rfl) rfl (by decide +kernel)
    · exact @Json.exact_of_toFloat? _ ⟨false, "6900000000".toList, ['0'], none⟩
        (by rw [second]; rfl) rfl (by decide +kernel)
  obtain ⟨accepts, values⟩ := reading renamed _ lists
  have accepted : ∃ config, decode renamed = some config := by
    refine accepts.2 ⟨?_, fun c x last => ?_⟩
    · rintro e mem
      simp only [List.mem_cons, List.not_mem_nil, or_false] at mem
      rcases mem with rfl | rfl
      · exact ⟨.drive 0, rfl⟩
      · exact ⟨.drive 0, rfl⟩
    · rw [← settable_iff]
      by_cases here : c = .drive 0
      · subst here
        obtain rfl : x = 5e9 := Option.some.inj (last.symm.trans (by decide +kernel))
        exact by decide +kernel
      · simp [lastNamed, zero, signed, Ne.symm here] at last
  obtain ⟨config, accepted⟩ := accepted
  refine ⟨failing tuned ⟨true, .acquire 0, 5e9⟩ _ rfl,
    ⟨config, accepted, (values config accepted _).trans (by decide +kernel)⟩, other _ ?_,
    ((writing tuned (obtainable_play _)).2.2 exact).1⟩
  rintro entries ⟨_, same, -⟩
  cases same

end QuantumControl.Pulse.LoConfig
