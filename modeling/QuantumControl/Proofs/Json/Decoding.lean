import Mathlib.Data.List.Forall2
import QuantumControl.Json.Decoder
import QuantumControl.Proofs.Json.Printing

/-!
# What decoders accept

A decoder of a list or of an object's members succeeds if and only if it succeeds on each part
(`mapM_eq_some_iff`).  A record that was written is found again field by field, in whatever
order its members are (`fields_ofMembers`).
-/

namespace QuantumControl.Json.Decoder

variable {α β : Type}

/-- Going through a list succeeds if and only if it does so for each of its parts. -/
theorem mapM_eq_some_iff {f : α → Option β} {as : List α} {bs : List β} :
    as.mapM f = some bs ↔ List.Forall₂ (fun a b => f a = some b) as bs := by
  induction as generalizing bs with
  | nil => simp [eq_comm]
  | cons a as ih =>
      simp only [List.mapM_cons, Option.bind_eq_bind, Option.bind_eq_some_iff, Option.pure_def,
        Option.some.injEq, ih, List.forall₂_cons_left_iff]
      constructor
      · rintro ⟨b, first, bs, rest, rfl⟩
        exact ⟨b, bs, first, rest, rfl⟩
      · rintro ⟨b, bs, first, rest, rfl⟩
        exact ⟨b, first, bs, rest, rfl⟩

/-- A number that stands for a double: the double, or a whole number next to it. -/
inductive IsDouble : Document → Float → Prop
  | float (x : Float) : IsDouble (.number (.float x)) x
  | int (n : Int) : IsDouble (.number (.int n)) (Float.ofInt n)

theorem float_eq_some_iff {d : Document} {x : Float} : float d = some x ↔ IsDouble d x := by
  constructor
  · unfold float
    split <;> rintro ⟨⟩
    · exact .int _
    · exact .float _
  · rintro ⟨⟩ <;> rfl

/-- The members of an object are decoded if and only if every key is a text and every value is
decoded. -/
theorem members_eq_some_iff {decode : Decoder α} {d : Document} {entries : List (String × α)} :
    members decode d = some entries ↔
      ∃ ms, d = .object ms ∧
        List.Forall₂ (fun m e => m.1 = some e.1 ∧ decode m.2 = some e.2) ms entries := by
  cases d with
  | object ms =>
      have entry (m : Option String × Document) (e : String × α) :
          (do return (← m.1, ← decode m.2) : Option (String × α)) = some e ↔
            m.1 = some e.1 ∧ decode m.2 = some e.2 := by
        obtain ⟨key, value⟩ := m
        cases key with
        | none => simp
        | some key =>
          cases h : decode value <;> simp [Prod.ext_iff]
      simp only [members, mapM_eq_some_iff, entry]
      exact ⟨fun all => ⟨ms, rfl, all⟩, fun ⟨_, same, all⟩ => by cases same; exact all⟩
  | _ => exact ⟨nofun, fun ⟨_, same, _⟩ => nomatch same⟩

/-! ## Records -/

/-- The fields of a record that was written with different names. -/
theorem fields_ofMembers {es : List (String × Json)} (distinct : (es.map Prod.fst).Nodup)
    (names : List String) :
    fields names (ofMembers es).toDocument =
      some (names.map fun name => (Table.find name es).map toDocument) := by
  have ascending := Sorted.ascending_ofList es
  -- no key is repeated after sorting, so that every name finds its one value or none
  have field (name : String) :
      field? ((Sorted.ofList es).map fun m => (some m.1, m.2.toDocument)) name =
        some ((Table.find name es).map toDocument) := by
    have same := ascending.find_perm (Sorted.ofList_perm_of_nodup distinct).symm name
    have chosen : ((Sorted.ofList es).map fun m => (some m.1, m.2.toDocument)).filter
        (fun m => decide (m.1 = some name)) =
          ((Table.find name es).map fun v => (some name, v.toDocument)).toList := by
      rw [List.filter_map, same]
      simp only [Function.comp_def, Option.some.injEq, Table.filter_key_of_nodup ascending.nodup]
      cases Table.find name (Sorted.ofList es) <;> rfl
    rw [field?, chosen]
    cases Table.find name es <;> rfl
  have named : ((Sorted.ofList es).map fun m => (some m.1, m.2.toDocument)).all
      (fun m => m.1.isSome) := by simp
  rw [ofMembers, toDocument, toKeyed_eq_map, fields, if_pos named, mapM_eq_some_iff,
    List.forall₂_map_right_iff]
  exact List.forall₂_same.2 fun name _ => field name

end QuantumControl.Json.Decoder
