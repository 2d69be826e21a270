/-! # Sorted entry lists

Entries kept in ascending order of their keys, one entry per key. -/

namespace QuantumControl.Sorted

universe u v

variable {κ : Type u} {ν : Type v}

/-- Compute the value of a key in an ascending entry list from the one it has, if it has one. -/
def alter [LT κ] [DecidableLT κ] (k : κ) (f : Option ν → ν) : List (κ × ν) → List (κ × ν)
  | [] => [(k, f none)]
  | e :: es =>
      if k < e.1 then (k, f none) :: e :: es
      else if e.1 < k then e :: alter k f es
      else (k, f (some e.2)) :: es

/-- Set the value of a key. -/
def insert [LT κ] [DecidableLT κ] (k : κ) (v : ν) (es : List (κ × ν)) : List (κ × ν) :=
  alter k (fun _ => v) es

/-- The ascending entry list of a list of pairs; of several values for one key the last stays. -/
def ofList [LT κ] [DecidableLT κ] (es : List (κ × ν)) : List (κ × ν) :=
  es.foldl (fun sorted e => insert e.1 e.2 sorted) []

end QuantumControl.Sorted
