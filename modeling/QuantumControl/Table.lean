/-! # Finite tables

A table holds at most one value per key and remembers the order in which its keys arrived.
Writing to a key that is present keeps its place. -/

namespace QuantumControl

universe u v w

/-- A finite map from keys to values in order of arrival. -/
structure Table (κ : Type u) (ν : Type v) where
  entries : List (κ × ν)
  distinct : (entries.map Prod.fst).Nodup

namespace Table

variable {κ : Type u} {ν : Type v}

def empty : Table κ ν := ⟨[], by simp⟩

instance : Inhabited (Table κ ν) := ⟨empty⟩
instance : EmptyCollection (Table κ ν) := ⟨empty⟩

@[ext] theorem ext {s t : Table κ ν} (h : s.entries = t.entries) : s = t := by
  cases s; cases t; cases h; rfl

def keys (t : Table κ ν) : List κ := t.entries.map Prod.fst

def size (t : Table κ ν) : Nat := t.entries.length

def isEmpty (t : Table κ ν) : Bool := t.entries.isEmpty

/-! ## Reading -/

section Reading

variable [DecidableEq κ]

/-- The value of the first entry with the given key. -/
def find (k : κ) : List (κ × ν) → Option ν
  | [] => none
  | e :: es => if e.1 = k then some e.2 else find k es

@[simp] theorem find_nil (k : κ) : find k ([] : List (κ × ν)) = none := rfl

theorem find_eq_none_iff {k : κ} {es : List (κ × ν)} : find k es = none ↔ k ∉ es.map Prod.fst := by
  induction es with
  | nil => simp
  | cons e es ih =>
      by_cases h : e.1 = k
      · simp [find, h]
      · have h' : ¬ k = e.1 := fun e => h e.symm
        rw [find, if_neg h, ih, List.map_cons, List.mem_cons, not_or]
        exact ⟨fun hk => ⟨h', hk⟩, fun hk => hk.2⟩

theorem find_eq_some_of_mem {k : κ} {v : ν} {es : List (κ × ν)} (h : (k, v) ∈ es)
    (distinct : (es.map Prod.fst).Nodup) : find k es = some v := by
  induction es with
  | nil => cases h
  | cons e es ih =>
      rw [List.map_cons, List.nodup_cons] at distinct
      rcases List.mem_cons.1 h with rfl | later
      · exact if_pos rfl
      · have other : ¬ e.1 = k := fun same => distinct.1 (same ▸ List.mem_map_of_mem later)
        rw [find, if_neg other, ih later distinct.2]

theorem mem_of_find_eq_some {k : κ} {v : ν} {es : List (κ × ν)} (h : find k es = some v) :
    (k, v) ∈ es := by
  induction es with
  | nil => cases h
  | cons e es ih =>
      by_cases here : e.1 = k
      · rw [find, if_pos here] at h
        cases h
        rw [← here]
        exact List.mem_cons_self
      · rw [find, if_neg here] at h
        exact List.mem_cons_of_mem e (ih h)

/-- Mapping the values of a list of entries maps the value that a key has. -/
theorem find_map {ω : Type w} (f : ν → ω) (k : κ) (es : List (κ × ν)) :
    find k (es.map fun e => (e.1, f e.2)) = (find k es).map f := by
  induction es with
  | nil => rfl
  | cons e es ih =>
      by_cases h : e.1 = k
      · simp [find, h]
      · simp [find, h, ih]

theorem find_append (k : κ) (es more : List (κ × ν)) :
    find k (es ++ more) = (find k es).or (find k more) := by
  induction es with
  | nil => rfl
  | cons e es ih =>
      rw [List.cons_append, find, find]
      split
      · rfl
      · exact ih

/-- Choosing among the keys keeps the values of those that are chosen. -/
theorem find_filter (p : κ → Bool) (k : κ) (es : List (κ × ν)) :
    find k (es.filter (p ·.1)) = if p k then find k es else none := by
  induction es with
  | nil => simp
  | cons e es ih =>
      by_cases here : e.1 = k
      · subst here
        by_cases chosen : p e.1
        · simp [find, chosen]
        · simpa [chosen] using ih
      · by_cases chosen : p e.1
        · simpa [find, chosen, here] using ih
        · simpa [find, chosen, here] using ih

/-- The value of a key is that of the first entry with the key. -/
theorem map_snd_find? (k : κ) (es : List (κ × ν)) :
    (es.find? (·.1 = k)).map Prod.snd = find k es := by
  induction es with
  | nil => rfl
  | cons e es ih =>
      by_cases here : e.1 = k
      · simp [find, here]
      · simpa [find, here] using ih

/-- In a list that is read from its end, the value of a key is that of the last entry with it. -/
theorem find_reverse (k : κ) (es : List (κ × ν)) :
    find k es.reverse = (es.filter (·.1 = k)).getLast?.map Prod.snd := by
  rw [← map_snd_find?, ← List.head?_filter, List.filter_reverse, List.head?_reverse]

/-- Of entries with distinct keys, at most one has a given key. -/
theorem filter_key_of_nodup {es : List (κ × ν)} (distinct : (es.map Prod.fst).Nodup) (k : κ) :
    es.filter (·.1 = k) = ((find k es).map fun v => (k, v)).toList := by
  induction es with
  | nil => rfl
  | cons e es ih =>
      obtain ⟨new, distinct⟩ := List.nodup_cons.1 distinct
      by_cases here : e.1 = k
      · subst here
        have none : find e.1 es = none := find_eq_none_iff.2 new
        simp [find, ih distinct, none]
      · simp [find, here, ih distinct]

def get? (t : Table κ ν) (k : κ) : Option ν := find k t.entries

def contains (t : Table κ ν) (k : κ) : Bool := (t.get? k).isSome

theorem get?_of_mem {t : Table κ ν} {e : κ × ν} (h : e ∈ t.entries) : t.get? e.1 = some e.2 :=
  find_eq_some_of_mem h t.distinct

end Reading

/-! ## Writing -/

section Writing

variable [DecidableEq κ]

/-- Replace the value of a key by one computed from it; a new key goes to the end. -/
def alterEntries (k : κ) (f : Option ν → ν) : List (κ × ν) → List (κ × ν)
  | [] => [(k, f none)]
  | e :: es => if e.1 = k then (e.1, f (some e.2)) :: es else e :: alterEntries k f es

theorem map_fst_alterEntries (k : κ) (f : Option ν → ν) (es : List (κ × ν)) :
    (alterEntries k f es).map Prod.fst =
      if k ∈ es.map Prod.fst then es.map Prod.fst else es.map Prod.fst ++ [k] := by
  induction es with
  | nil => simp [alterEntries]
  | cons e es ih =>
      by_cases h : e.1 = k
      · simp [alterEntries, h]
      · have h' : ¬ k = e.1 := fun e => h e.symm
        simp only [alterEntries, if_neg h, List.map_cons, ih, List.mem_cons, h', false_or]
        split <;> simp

theorem find_alterEntries (k j : κ) (f : Option ν → ν) (es : List (κ × ν)) :
    find j (alterEntries k f es) = if j = k then some (f (find k es)) else find j es := by
  induction es with
  | nil =>
      by_cases h : j = k
      · simp [alterEntries, find, h]
      · have : ¬ k = j := fun e => h e.symm
        simp [alterEntries, find, h, this]
  | cons e es ih =>
      by_cases h : e.1 = k
      · by_cases hj : j = k
        · simp [alterEntries, find, h, hj]
        · have : ¬ k = j := fun e => hj e.symm
          simp [alterEntries, find, h, hj, this]
      · by_cases hj : j = k
        · subst hj; simp [alterEntries, find, h, ih]
        · simp [alterEntries, find, h, ih, hj]

/-- Mapping the values after one was computed gives what is computed from the mapped values. -/
theorem map_alterEntries {ω : Type w} (g : ν → ω) {f : Option ν → ν} {f' : Option ω → ω}
    (h : ∀ v, g (f v) = f' (v.map g)) (k : κ) (es : List (κ × ν)) :
    (alterEntries k f es).map (fun e => (e.1, g e.2)) =
      alterEntries k f' (es.map fun e => (e.1, g e.2)) := by
  induction es with
  | nil => simp [alterEntries, h]
  | cons e es ih =>
      by_cases here : e.1 = k
      · simp [alterEntries, here, h]
      · simp [alterEntries, here, ih]

/-- Compute a key's value from the one it has, if it has one. -/
def alter (t : Table κ ν) (k : κ) (f : Option ν → ν) : Table κ ν where
  entries := alterEntries k f t.entries
  distinct := by
    rw [map_fst_alterEntries]
    split
    · exact t.distinct
    · next h =>
        refine List.nodup_append.2 ⟨t.distinct, by simp, ?_⟩
        rintro a ha b hb rfl
        exact h (by simpa [List.mem_singleton.1 hb] using ha)

/-- Set the value of a key. -/
def insert (t : Table κ ν) (k : κ) (v : ν) : Table κ ν := t.alter k fun _ => v

/-- Remove a key. -/
def erase (t : Table κ ν) (k : κ) : Table κ ν where
  entries := t.entries.filter fun e => decide (e.1 ≠ k)
  distinct := t.distinct.sublist ((List.filter_sublist).map Prod.fst)

theorem get?_alter (t : Table κ ν) (k j : κ) (f : Option ν → ν) :
    (t.alter k f).get? j = if j = k then some (f (t.get? k)) else t.get? j :=
  find_alterEntries k j f t.entries

@[simp] theorem get?_insert (t : Table κ ν) (k j : κ) (v : ν) :
    (t.insert k v).get? j = if j = k then some v else t.get? j :=
  t.get?_alter k j fun _ => v

theorem keys_alter (t : Table κ ν) (k : κ) (f : Option ν → ν) :
    (t.alter k f).keys = if k ∈ t.keys then t.keys else t.keys ++ [k] :=
  map_fst_alterEntries k f t.entries

theorem keys_insert (t : Table κ ν) (k : κ) (v : ν) :
    (t.insert k v).keys = if k ∈ t.keys then t.keys else t.keys ++ [k] :=
  t.keys_alter k fun _ => v

/-- Setting a key again to the value that it has changes nothing. -/
theorem insert_insert (t : Table κ ν) (k : κ) (v : ν) :
    (t.insert k v).insert k v = t.insert k v := by
  apply ext
  show alterEntries k _ (alterEntries k _ t.entries) = alterEntries k _ t.entries
  induction t.entries with
  | nil => simp [alterEntries]
  | cons e es ih =>
      by_cases h : e.1 = k
      · simp [alterEntries, h]
      · simp [alterEntries, h, ih]

@[simp] theorem get?_erase (t : Table κ ν) (k j : κ) :
    (t.erase k).get? j = if j = k then none else t.get? j := by
  show find j (t.entries.filter _) = if j = k then none else find j t.entries
  induction t.entries with
  | nil => simp
  | cons e es ih =>
      by_cases h : e.1 = k
      · by_cases hj : j = k
        · simp [h, hj] at ih ⊢
          exact ih
        · have : ¬ k = j := fun e => hj e.symm
          simp [h, hj, find, this] at ih ⊢
          exact ih
      · by_cases hj : j = k
        · subst hj; simp [h, find] at ih ⊢; exact ih
        · simp only [if_neg hj] at ih
          rw [List.filter_cons_of_pos (by simpa using h), find, find, ih, if_neg hj]

end Writing

end Table

end QuantumControl
