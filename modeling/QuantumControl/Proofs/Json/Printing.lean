import QuantumControl.Json.Document
import QuantumControl.Proofs.Json.Scanning
import QuantumControl.Proofs.Table.Sorted

/-!
# Reading printed values

A value is printed as its tokens, with commas between the parts of a container.  The builder
takes the tokens of a value as a whole: wherever a value may stand, they put its document
there (`foldlM_tokens`).

So a text that was printed is read as the document of its value (`read?_compact`), as far as
each number in it is.  Doubles are read by an approximation that is not exact for all of them,
so that this is asked of the numbers of the value (`Legible`).
-/

namespace QuantumControl.Json

/-- Induction on a value from its parts. -/
@[elab_as_elim]
theorem parts_induction {motive : Json → Prop} (null : motive .null) (bool : ∀ b, motive (.bool b))
    (int : ∀ n, motive (.int n)) (float : ∀ x, motive (.float x))
    (string : ∀ s, motive (.string s))
    (array : ∀ items, (∀ v ∈ items, motive v) → motive (.array items))
    (object : ∀ members, (∀ m ∈ members, motive m.2) → motive (.object members)) (v : Json) :
    motive v :=
  @Json.rec motive (fun items => ∀ v ∈ items, motive v) (fun members => ∀ m ∈ members, motive m.2)
    (fun m => motive m.2) null bool int float string array object nofun
    (fun _ _ first rest => List.forall_mem_cons.2 ⟨first, rest⟩) nofun
    (fun _ _ first rest => List.forall_mem_cons.2 ⟨first, rest⟩) (fun _ _ value => value) v

/-! ## The tokens of a value -/

mutual

/-- The tokens that a value is printed as. -/
def tokens : Json → List Token
  | .null => [.null]
  | .bool b => [.bool b]
  | .int n => [.number (.int n)]
  | .float x => [.number (.float x)]
  | .string s => [.string (some s)]
  | .array items =>
      .openBracket :: ([Token.comma].intercalate (itemTokens items) ++ [.closeBracket])
  | .object members =>
      .openBrace :: ([Token.comma].intercalate (memberTokens members) ++ [.closeBrace])

def itemTokens : List Json → List (List Token)
  | [] => []
  | v :: vs => tokens v :: itemTokens vs

def memberTokens : List (String × Json) → List (List Token)
  | [] => []
  | (key, v) :: rest => (.string (some key) :: .colon :: tokens v) :: memberTokens rest

end

theorem itemTokens_eq_map (items : List Json) : itemTokens items = items.map tokens := by
  induction items with
  | nil => rfl
  | cons v vs ih => rw [itemTokens, ih, List.map_cons]

/-- The tokens of a member. -/
def entryTokens (m : String × Json) : List Token := .string (some m.1) :: .colon :: tokens m.2

theorem memberTokens_eq_map (members : List (String × Json)) :
    memberTokens members = members.map entryTokens := by
  induction members with
  | nil => rfl
  | cons m ms ih => rw [memberTokens, ih, List.map_cons, entryTokens]

theorem toItems_eq_map (items : List Json) : toItems items = items.map toDocument := by
  induction items with
  | nil => rfl
  | cons v vs ih => rw [toItems, ih, List.map_cons]

theorem toKeyed_eq_map (members : List (String × Json)) :
    toKeyed members = members.map fun m => (some m.1, m.2.toDocument) := by
  induction members with
  | nil => rfl
  | cons m ms ih => rw [toKeyed, ih, List.map_cons]

/-! ## Building -/

section Building

open Document (Open Builder)
open Document.Builder (close)

/-- Where an item or the end of an array may stand, a value is its first item. -/
theorem foldlM_tokens_itemOrClose (v : Json) (rest : List Token) (stack : List Open) :
    (tokens v ++ rest).foldlM Builder.step (.itemOrClose stack) =
      (tokens v ++ rest).foldlM Builder.step (.value (.array [] :: stack)) := by
  cases v <;> rfl

section Parts

variable {α β : Type} (ready filled : List β → Builder) (text : α → List Token) (part : α → β)
  {a : α} {as : List α}

/-- The parts of a container, of which there is one at least: `ready` waits for the next part,
`filled` has taken the last one. -/
theorem foldlM_intercalate
    (fills : ∀ b ∈ a :: as, ∀ done,
      (text b).foldlM Builder.step (ready done) = some (filled (part b :: done)))
    (next : ∀ done, (filled done).step .comma = some (ready done)) (done : List β) :
    ([Token.comma].intercalate ((a :: as).map text)).foldlM Builder.step (ready done) =
      some (filled (((a :: as).map part).reverse ++ done)) := by
  induction as generalizing a done with
  | nil => simpa using fills a List.mem_cons_self done
  | cons b bs ih =>
      obtain ⟨first, fills⟩ := List.forall_mem_cons.1 fills
      have rest := ih fills (part a :: done)
      rw [List.map_cons, List.map_cons, List.intercalate_cons_cons, List.append_assoc,
        List.foldlM_append, first, ← List.map_cons]
      simp only [Option.bind_eq_bind, Option.bind_some, List.singleton_append, List.foldlM_cons,
        next, rest]
      simp

/-- A container from its first part to its end, when the first part may stand where it opens. -/
theorem foldlM_container (opened : Builder) (closing : Token)
    (begins : ∀ more, (text a ++ more).foldlM Builder.step opened =
      (text a ++ more).foldlM Builder.step (ready []))
    (fills : ∀ b ∈ a :: as, ∀ done,
      (text b).foldlM Builder.step (ready done) = some (filled (part b :: done)))
    (next : ∀ done, (filled done).step .comma = some (ready done)) :
    ([Token.comma].intercalate ((a :: as).map text) ++ [closing]).foldlM Builder.step opened =
      (filled ((a :: as).map part).reverse).step closing := by
  have parts := foldlM_intercalate ready filled text part fills next []
  -- one part or several, the tokens begin with those of the first part
  obtain ⟨more, shape⟩ : ∃ more,
      [Token.comma].intercalate ((a :: as).map text) = text a ++ more := by
    cases as with
    | nil => exact ⟨[], by simp⟩
    | cons b bs => exact ⟨_, List.intercalate_cons_cons.trans (List.append_assoc _ _ _)⟩
  rw [shape] at parts
  rw [shape, List.append_assoc, begins, ← List.append_assoc, List.foldlM_append, parts]
  simp

end Parts

/-- Where a value may stand, the tokens of one put its document there. -/
theorem foldlM_tokens (v : Json) (stack : List Open) :
    (tokens v).foldlM Builder.step (.value stack) = some (close v.toDocument stack) := by
  induction v using parts_induction generalizing stack with
  | null | bool | int | float | string => rfl
  | array items ih =>
      cases items with
      | nil => rfl
      | cons v vs =>
        have closed := foldlM_container (fun done => .value (.array done :: stack))
          (fun done => .separator (.array done) stack) tokens toDocument (.itemOrClose stack)
          .closeBracket (fun more => foldlM_tokens_itemOrClose v more stack)
          (fun w mem done => ih w mem (.array done :: stack)) (fun _ => rfl)
        rw [tokens, itemTokens_eq_map, toDocument, toItems_eq_map]
        refine closed.trans ?_
        rw [Builder.step, List.reverse_reverse]
  | object members ih =>
      cases members with
      | nil => rfl
      | cons m ms =>
        have closed := foldlM_container (fun done => .key done stack)
          (fun done => .separator (.object done) stack) entryTokens
          (fun n => (some n.1, n.2.toDocument)) (.keyOrClose stack) .closeBrace (fun _ => rfl)
          (fun n mem done => ih n mem (.member done (some n.1) :: stack)) (fun _ => rfl)
        rw [tokens, memberTokens_eq_map, toDocument, toKeyed_eq_map]
        refine closed.trans ?_
        rw [Builder.step, List.reverse_reverse]

/-- The tokens of a value spell out its document. -/
theorem ofTokens?_tokens (v : Json) : Document.ofTokens? (tokens v) = some v.toDocument := by
  rw [Document.ofTokens?, foldlM_tokens]
  rfl

end Building

/-! ## Scanning -/

/-- A double that is printed and scanned exactly. -/
def Exact (x : Float) : Prop :=
  Token.scan (Decimal.listed x).toList = some [.number (.float x)]

/-- A double is scanned exactly if its digits, with a fraction among them, come to it. -/
theorem exact_of_toFloat? {x : Float} {n : Numeral}
    (text : Token.scan (Decimal.listed x).toList = some [.number n.toNumber])
    (fraction : n.fraction.isEmpty = false) (value : n.toFloat? = some x) : Exact x := by
  rw [Exact, text, Numeral.toNumber]
  simp [fraction, value]

/-- All numbers of a value are scanned to themselves when they are printed. -/
inductive Legible : Json → Prop
  | null : Legible .null
  | bool (b : Bool) : Legible (.bool b)
  | int {n : Int} (exact : Token.scan (toString n).toList = some [.number (.int n)]) :
      Legible (.int n)
  | float {x : Float} (finite : x.isFinite) (exact : Exact x) : Legible (.float x)
  | string (s : String) : Legible (.string s)
  | array {items : List Json} (legible : ∀ v ∈ items, Legible v) : Legible (.array items)
  | object {members : List (String × Json)} (legible : ∀ m ∈ members, Legible m.2) :
      Legible (.object members)

theorem compactItems_eq_map (items : List Json) : compactItems items = items.map compact := by
  induction items with
  | nil => rfl
  | cons v vs ih => rw [compactItems, ih, List.map_cons]

/-- An object is legible if all the members that it is made of are. -/
theorem legible_ofMembers {members : List (String × Json)}
    (legible : ∀ m ∈ members, Legible m.2) : Legible (ofMembers members) :=
  .object fun m mem => legible m (Sorted.mem_of_mem_ofList mem)

/-- The text of a member. -/
def entryText (m : String × Json) : String := stringText m.1 ++ ":" ++ m.2.compact

theorem compactMembers_eq_map (members : List (String × Json)) :
    compactMembers members = members.map entryText := by
  induction members with
  | nil => rfl
  | cons m ms ih => rw [compactMembers, ih, List.map_cons, entryText]

/-- Parts with commas between them are scanned one by one, up to the mark that ends them. -/
theorem scan_intercalate {α : Type} {text : α → String} {part : α → List Token} {c : Char}
    {t : Token} (mark : IsMark c t) {as : List α}
    (scanned : ∀ a ∈ as, Token.scan (text a).toList = some (part a)) :
    Token.scan ((",".intercalate (as.map text)).toList ++ [c]) =
      some ([Token.comma].intercalate (as.map part) ++ [t]) := by
  have comma : ",".toList = [','] := rfl
  rw [String.toList_intercalate, List.map_map, comma]
  induction as with
  | nil => exact scan_mark mark []
  | cons a as ih =>
      obtain ⟨first, rest⟩ := List.forall_mem_cons.1 scanned
      cases as with
      | nil =>
          simp only [List.map_cons, List.map_nil, List.intercalate_singleton]
          exact scan_append_mark mark first []
      | cons b bs =>
          simp only [List.map_cons, List.intercalate_cons_cons, List.append_assoc,
            List.cons_append, List.nil_append] at ih ⊢
          rw [Function.comp_apply, scan_append_mark isMark_comma first, ih rest]
          rfl

theorem scan_entryText {m : String × Json}
    (scanned : Token.scan m.2.compact.toList = some (tokens m.2)) :
    Token.scan (entryText m).toList = some (entryTokens m) := by
  have colon : ":".toList = [':'] := rfl
  rw [entryText, String.toList_append, String.toList_append, colon, List.append_assoc,
    List.singleton_append, scan_append_mark isMark_colon (scan_stringText m.1), scanned]
  rfl

/-- Parts between brackets or braces. -/
theorem scan_bracketed {α : Type} {text : α → String} {part : α → List Token} {c d : Char}
    {t u : Token} (opening : IsMark c t) (closing : IsMark d u) {as : List α}
    (scanned : ∀ a ∈ as, Token.scan (text a).toList = some (part a)) :
    Token.scan
        (String.singleton c ++ ",".intercalate (as.map text) ++ String.singleton d).toList =
      some (t :: ([Token.comma].intercalate (as.map part) ++ [u])) := by
  rw [String.toList_append, String.toList_append, String.toList_singleton,
    String.toList_singleton, List.append_assoc, List.singleton_append, scan_mark opening,
    scan_intercalate closing scanned]
  rfl

theorem scan_compact {v : Json} (legible : Legible v) :
    Token.scan v.compact.toList = some (tokens v) := by
  induction legible with
  | null => rfl
  | bool b => cases b <;> rfl
  | int exact => exact exact
  | float finite exact => rwa [compact, if_pos finite]
  | string s => exact scan_stringText s
  | array _ ih =>
      rw [compact, compactItems_eq_map, tokens, itemTokens_eq_map]
      exact scan_bracketed isMark_openBracket isMark_closeBracket ih
  | object _ ih =>
      rw [compact, compactMembers_eq_map, tokens, memberTokens_eq_map]
      exact scan_bracketed isMark_openBrace isMark_closeBrace fun m mem => scan_entryText (ih m mem)

/-- A text that was printed is read as the document of its value. -/
theorem read?_compact {v : Json} (legible : Legible v) :
    Document.read? v.compact = some v.toDocument := by
  rw [Document.read?, scan_compact legible]
  exact ofTokens?_tokens v

end QuantumControl.Json
