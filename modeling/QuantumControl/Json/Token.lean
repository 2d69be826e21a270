import QuantumControl.Json.Number
import QuantumControl.Text.Hex

/-! # JSON tokens

Text is scanned one character at a time; the scanner's mode says which token is under way. Strings
are unescaped into UTF-16 code units first, so that a surrogate without its partner can be told
apart from a fault of spelling: it spoils the string, but not the text around it.

What is accepted is the standard's grammar without extensions, as the library documents that this
stands for: the four blanks of the standard, its escapes, no bare control characters and no
comments. -/

namespace QuantumControl.Json

open Text (hexDigit?)

inductive Token where
  | openBrace
  | closeBrace
  | openBracket
  | closeBracket
  | comma
  | colon
  | null
  | bool (b : Bool)
  | number (n : Number)
  /-- A string, or none if it holds a lone surrogate. -/
  | string (s : Option String)

/-! ## Strings -/

/-- The code point of a character, or the code unit of an escape. -/
def unescape : List Char → Option (List Nat)
  | [] => some []
  | '\\' :: 'u' :: a :: b :: c :: d :: rest => do
      let unit := 4096 * (← hexDigit? a) + 256 * (← hexDigit? b) + 16 * (← hexDigit? c) +
        (← hexDigit? d)
      return unit :: (← unescape rest)
  | '\\' :: c :: rest => do
      let unit ← match c with
        | '"' => some 0x22
        | '\\' => some 0x5c
        | '/' => some 0x2f
        | 'b' => some 0x08
        | 'f' => some 0x0c
        | 'n' => some 0x0a
        | 'r' => some 0x0d
        | 't' => some 0x09
        | _ => none
      return unit :: (← unescape rest)
  | c :: rest => if c = '\\' ∨ c.toNat < 0x20 then none else do return c.toNat :: (← unescape rest)

def isHighSurrogate (n : Nat) : Bool := 0xd800 ≤ n && n < 0xdc00
def isLowSurrogate (n : Nat) : Bool := 0xdc00 ≤ n && n < 0xe000

/-- Join surrogates to characters; none if one stands alone. -/
def joinUnits : List Nat → Option (List Char)
  | [] => some []
  | high :: low :: rest =>
      if isHighSurrogate high then
        if isLowSurrogate low then do
          return Char.ofNat (0x10000 + (high - 0xd800) * 1024 + (low - 0xdc00)) ::
            (← joinUnits rest)
        else none
      else if isLowSurrogate high then none
      else do return Char.ofNat high :: (← joinUnits (low :: rest))
  | [unit] =>
      if isHighSurrogate unit || isLowSurrogate unit then none else some [Char.ofNat unit]

/-! ## The scanner -/

/-- What the scanner is in the middle of, with the characters so far backwards. -/
inductive Mode where
  | between
  | word (run : List Char)
  | number (run : List Char)
  | text (run : List Char) (escaped : Bool)

structure Scanner where
  mode : Mode
  /-- The finished tokens backwards. -/
  tokens : List Token

namespace Scanner

def initial : Scanner := ⟨.between, []⟩

def isWordChar (c : Char) : Bool := c.isAlpha

def isNumberChar (c : Char) : Bool :=
  c.isDigit || c = '-' || c = '+' || c = '.' || c = 'e' || c = 'E'

/-- Begin at a character with no token under way. -/
def begin? (tokens : List Token) (c : Char) : Option Scanner :=
  match c with
  | ' ' | '\n' | '\t' | '\r' => some ⟨.between, tokens⟩
  | '\x7b' => some ⟨.between, .openBrace :: tokens⟩
  | '\x7d' => some ⟨.between, .closeBrace :: tokens⟩
  | '[' => some ⟨.between, .openBracket :: tokens⟩
  | ']' => some ⟨.between, .closeBracket :: tokens⟩
  | ',' => some ⟨.between, .comma :: tokens⟩
  | ':' => some ⟨.between, .colon :: tokens⟩
  | '"' => some ⟨.text [] false, tokens⟩
  | c =>
      if c.isDigit || c = '-' then some ⟨.number [c], tokens⟩
      else if isWordChar c then some ⟨.word [c], tokens⟩
      else none

def word? (run : List Char) : Option Token :=
  match String.ofList run.reverse with
  | "null" => some .null
  | "true" => some (.bool true)
  | "false" => some (.bool false)
  | _ => none

def number? (run : List Char) : Option Token :=
  (Numeral.ofChars? run.reverse).map fun n => .number n.toNumber

def string? (run : List Char) : Option Token :=
  (unescape run.reverse).map fun units => .string ((joinUnits units).map String.ofList)

def step (s : Scanner) (c : Char) : Option Scanner :=
  match s.mode with
  | .between => begin? s.tokens c
  | .word run =>
      if isWordChar c then some ⟨.word (c :: run), s.tokens⟩
      else do begin? ((← word? run) :: s.tokens) c
  | .number run =>
      if isNumberChar c then some ⟨.number (c :: run), s.tokens⟩
      else do begin? ((← number? run) :: s.tokens) c
  | .text run escaped =>
      if escaped then some ⟨.text (c :: run) false, s.tokens⟩
      else if c = '"' then do return ⟨.between, (← string? run) :: s.tokens⟩
      else some ⟨.text (c :: run) (c = '\\'), s.tokens⟩

/-- All tokens, in order, of a scan that ends between two. -/
def finish (s : Scanner) : Option (List Token) :=
  match s.mode with
  | .between => some s.tokens.reverse
  | .word run => do return ((← word? run) :: s.tokens).reverse
  | .number run => do return ((← number? run) :: s.tokens).reverse
  | .text _ _ => none

end Scanner

/-- The tokens of a text. -/
def Token.scan (cs : List Char) : Option (List Token) := do
  (← cs.foldlM Scanner.step Scanner.initial).finish

end QuantumControl.Json
