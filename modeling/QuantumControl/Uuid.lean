import QuantumControl.Text.Hex

/-! # Universally unique identifiers

An identifier of 128 bits, written as 32 lower-case hexadecimal digits in groups of 8, 4, 4, 4 and
12. Reading takes digits of either case, with the groups or run together, and the grouped form also
between braces or after `urn:uuid:`, which may be in either case too.

The identifiers stand for those of a library outside of this project. The forms that are read and
the one that is written are those that it documents, and so is the layout of a random identifier. -/

namespace QuantumControl

structure Uuid where
  bits : BitVec 128
deriving DecidableEq, Repr

namespace Uuid

/-- The hexadecimal digits of an identifier, highest first. -/
def digits (u : Uuid) : List Char :=
  (List.range 32).map fun i => Nat.digitChar ((u.bits.toNat >>> (4 * (31 - i))) % 16)

/-- Read digits onto `value`. -/
def ofDigits? (value : Nat) : List Char → Option Nat
  | [] => some value
  | c :: cs => do ofDigits? (16 * value + (← Text.hexDigit? c)) cs

def ofRun? (cs : List Char) : Option Uuid :=
  if cs.length = 32 then (ofDigits? 0 cs).map fun n => ⟨BitVec.ofNat 128 n⟩ else none

/-- The positions of the hyphens in the grouped form. -/
def hyphens : List Nat := [8, 13, 18, 23]

def ofGroups? (cs : List Char) : Option Uuid :=
  if cs.length = 36 ∧ hyphens.all (fun i => cs[i]? = some '-') then
    ofRun? (cs.take 8 ++ (cs.drop 9).take 4 ++ (cs.drop 14).take 4 ++ (cs.drop 19).take 4 ++
      cs.drop 24)
  else none

/-- Read an identifier. -/
def read? (s : String) : Option Uuid :=
  let cs := s.toList
  if cs.length = 32 then ofRun? cs
  else if cs.length = 36 then ofGroups? cs
  else if cs.length = 38 ∧ cs.head? = some '\x7b' ∧ cs.getLast? = some '\x7d' then
    ofGroups? (cs.drop 1).dropLast
  else if cs.length = 45 ∧ (cs.take 9).map Char.toLower = "urn:uuid:".toList then
    ofGroups? (cs.drop 9)
  else none

/-- The digits run together. -/
def simple (u : Uuid) : String := String.ofList u.digits

def text (u : Uuid) : String :=
  let ds := u.digits
  String.ofList (ds.take 8 ++ '-' :: (ds.drop 8).take 4 ++ '-' :: (ds.drop 12).take 4 ++
    '-' :: (ds.drop 16).take 4 ++ '-' :: ds.drop 20)

instance : ToString Uuid := ⟨text⟩

/-- A random identifier's layout: version 4 and the standard variant over the given bits. -/
def ofRandom (bits : BitVec 128) : Uuid :=
  let version : BitVec 128 := 0x4#128 <<< 76
  let variant : BitVec 128 := 0x2#128 <<< 62
  let versionMask : BitVec 128 := 0xf#128 <<< 76
  let variantMask : BitVec 128 := 0x3#128 <<< 62
  ⟨(bits &&& ~~~versionMask &&& ~~~variantMask) ||| version ||| variant⟩

end Uuid

end QuantumControl
