import QuantumControl.Json.Token

/-! # JSON documents

A document is JSON as it is written: objects keep repeated keys and the order of their members, and
strings and numbers that stand for no value keep their place. A document is built from its tokens
with the containers that are still open on a stack.

It stands for what a library shows to the decoders of types while it reads. As documented there, a
text holds one document and nothing after it but blanks, commas only separate, and it is for the
decoder to judge repeated keys; as a value, an object keeps the last of them. -/

namespace QuantumControl.Json

inductive Document where
  | null
  | bool (b : Bool)
  | number (n : Number)
  | string (s : Option String)
  | array (items : List Document)
  | object (members : List (Option String × Document))

namespace Document

/-- A container under way, its finished parts backwards. -/
inductive Open where
  | array (items : List Document)
  | object (members : List (Option String × Document))
  /-- An object with a member whose key is read and whose value is not. -/
  | member (members : List (Option String × Document)) (key : Option String)

/-- What may follow. -/
inductive Builder where
  | value (stack : List Open)
  | itemOrClose (stack : List Open)
  | keyOrClose (stack : List Open)
  | key (members : List (Option String × Document)) (stack : List Open)
  | colon (members : List (Option String × Document)) (name : Option String) (stack : List Open)
  | separator (inside : Open) (stack : List Open)
  | finished (document : Document)

namespace Builder

/-- Put a finished document into the container around it. -/
def close (document : Document) : List Open → Builder
  | [] => .finished document
  | .array items :: stack => .separator (.array (document :: items)) stack
  | .member members name :: stack => .separator (.object ((name, document) :: members)) stack
  | .object members :: stack => .separator (.object members) stack

/-- Start a value. -/
def startValue (stack : List Open) : Token → Option Builder
  | .null => some (close .null stack)
  | .bool b => some (close (.bool b) stack)
  | .number n => some (close (.number n) stack)
  | .string s => some (close (.string s) stack)
  | .openBracket => some (.itemOrClose stack)
  | .openBrace => some (.keyOrClose stack)
  | _ => none

def step : Builder → Token → Option Builder
  | .value stack, t => startValue stack t
  | .itemOrClose stack, .closeBracket => some (close (.array []) stack)
  | .itemOrClose stack, t => startValue (.array [] :: stack) t
  | .keyOrClose stack, .closeBrace => some (close (.object []) stack)
  | .keyOrClose stack, .string s => some (.colon [] s stack)
  | .key members stack, .string s => some (.colon members s stack)
  | .colon members name stack, .colon => some (.value (.member members name :: stack))
  | .separator (.array items) stack, .comma => some (.value (.array items :: stack))
  | .separator (.array items) stack, .closeBracket => some (close (.array items.reverse) stack)
  | .separator (.object members) stack, .comma => some (.key members stack)
  | .separator (.object members) stack, .closeBrace =>
      some (close (.object members.reverse) stack)
  | _, _ => none

def finish : Builder → Option Document
  | .finished document => some document
  | _ => none

end Builder

/-- The document that a list of tokens spells out. -/
def ofTokens? (tokens : List Token) : Option Document := do
  (← tokens.foldlM Builder.step (.value [])).finish

/-- Read a text that holds one document. -/
def read? (s : String) : Option Document := do ofTokens? (← Token.scan s.toList)

end Document

/-! ## Values and documents -/

mutual

/-- The value of a document, if all its strings and numbers stand for values. -/
def ofDocument : Document → Option Json
  | .null => some .null
  | .bool b => some (.bool b)
  | .number (.int n) => some (.int n)
  | .number (.float x) => some (.float x)
  | .number .outOfRange => none
  | .string s => s.map .string
  | .array items => (ofItems items).map .array
  | .object members => (ofKeyed members).map ofMembers

def ofItems : List Document → Option (List Json)
  | [] => some []
  | d :: ds => do return (← ofDocument d) :: (← ofItems ds)

def ofKeyed : List (Option String × Document) → Option (List (String × Json))
  | [] => some []
  | (key, d) :: rest => do return (← key, ← ofDocument d) :: (← ofKeyed rest)

end

mutual

/-- The document of a value. -/
def toDocument : Json → Document
  | .null => .null
  | .bool b => .bool b
  | .int n => .number (.int n)
  | .float x => .number (.float x)
  | .string s => .string (some s)
  | .array items => .array (toItems items)
  | .object members => .object (toKeyed members)

def toItems : List Json → List Document
  | [] => []
  | v :: vs => toDocument v :: toItems vs

def toKeyed : List (String × Json) → List (Option String × Document)
  | [] => []
  | (key, v) :: rest => (some key, toDocument v) :: toKeyed rest

end

/-- Read a text that holds one value. -/
def read? (s : String) : Option Json := do ofDocument (← Document.read? s)

end QuantumControl.Json
