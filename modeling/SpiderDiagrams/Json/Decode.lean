import SpiderDiagrams.Json.Basic
import SpiderDiagrams.SortedMap
import SpiderDiagrams.Text.Quoted

namespace SpiderDiagrams

namespace Text

def ticked (s : String) : String := "`" ++ s ++ "`"

end Text

inductive Found where
  | null
  | bool (b : Bool)
  | natural (n : Nat)
  | negative (n : Nat)
  | decimal (text : String)
  | string (s : String)
  | list
  | object
  | unitVariant
deriving DecidableEq

def Found.text : Found → String
  | null => "null"
  | bool b => "boolean " ++ Text.ticked (if b then "true" else "false")
  | natural n => "integer " ++ Text.ticked (toString n)
  | negative n => "integer " ++ Text.ticked s!"-{n}"
  | decimal text => "floating point " ++ Text.ticked text
  | string s => "string " ++ Text.quoted s
  | list => "sequence"
  | object => "map"
  | unitVariant => "unit variant"

inductive DataFault where
  | missingField (name : String)
  | duplicateField (name : String)
  | invalidType (found : Found) (expected : String)
  | invalidValue (found : Found) (expected : String)
  | invalidLength (length : Nat) (expected : String)
  | unknownVariant (name : String) (known : List String)
  /-- The value has the right form and is refused for another reason. -/
  | refused (message : String)
deriving DecidableEq

namespace DataFault

def alternatives (known : List String) : String :=
  match known.map Text.ticked with
  | [a] => a
  | [a, b] => s!"{a} or {b}"
  | names => "one of " ++ ", ".intercalate names

def message : DataFault → String
  | missingField name => "missing field " ++ Text.ticked name
  | duplicateField name => "duplicate field " ++ Text.ticked name
  | invalidType found expected => s!"invalid type: {found.text}, expected {expected}"
  | invalidValue found expected => s!"invalid value: {found.text}, expected {expected}"
  | invalidLength length expected => s!"invalid length {length}, expected {expected}"
  | unknownVariant name known =>
    s!"unknown variant {Text.ticked name}, expected {alternatives known}"
  | refused message => message

end DataFault

inductive JsonFault where
  | text (f : TextFault)
  | data (f : DataFault)
deriving DecidableEq

def JsonFault.message : JsonFault → String
  | text f => f.message
  | data f => f.message

abbrev Decoder (α : Type) := Json → Except JsonFault α

namespace Json

def mismatch (expected : String) : Json → JsonFault
  | null => .data (.invalidType .null expected)
  | bool b => .data (.invalidType (.bool b) expected)
  | number (.natural n) => .data (.invalidType (.natural n) expected)
  | number (.negative n) => .data (.invalidType (.negative n) expected)
  | number (.decimal text) => .data (.invalidType (.decimal text) expected)
  | string s => .data (.invalidType (.string s) expected)
  | list _ => .data (.invalidType .list expected)
  | object _ => .data (.invalidType .object expected)
  | unreadable f | broken f => .text f

mutual

def breakage? : Json → Option TextFault
  | broken f => some f
  | list items => breakageOfItems? items
  | object members => breakageOfMembers? members
  | _ => none

def breakageOfItems? : List Json → Option TextFault
  | [] => none
  | j :: js => breakage? j <|> breakageOfItems? js

def breakageOfMembers? : List (Json × Json) → Option TextFault
  | [] => none
  | m :: ms => breakageOfMember? m <|> breakageOfMembers? ms

def breakageOfMember? : Json × Json → Option TextFault
  | (k, v) => breakage? k <|> breakage? v

end

def skip (j : Json) : Except JsonFault Unit :=
  match j.breakage? with
  | some f => .error (.text f)
  | none => .ok ()

end Json

namespace Decoder

variable {α β σ : Type}

def string : Decoder String
  | .string s => .ok s
  | j => .error (j.mismatch "a string")

def bool : Decoder Bool
  | .bool b => .ok b
  | j => .error (j.mismatch "a boolean")

def nat : Decoder Nat
  | .number (.natural n) => .ok n
  | .number (.negative n) => .error (.data (.invalidValue (.negative n) "usize"))
  | j => .error (j.mismatch "usize")

def optional (d : Decoder α) : Decoder (Option α)
  | .null => .ok none
  | j => (d j).map some

def items (d : Decoder α) : List Json → Except JsonFault (List α)
  | [] => .ok []
  | j :: js => do
    let a ← d j
    return a :: (← items d js)

def list (d : Decoder α) : Decoder (List α)
  | .list js => items d js
  | j => .error (j.mismatch "a sequence")

def checked (d : Decoder α) (check : α → Except String β) : Decoder β := fun j => do
  (check (← d j)).mapError fun message => .data (.refused message)

def key : Json → Except JsonFault String
  | .string k => .ok k
  | .unreadable f | .broken f => .error (.text f)
  | _ => .error (.text .keyNotString)

def entries (d : Decoder α) : List (Json × Json) → Except JsonFault (List (String × α))
  | [] => .ok []
  | (k, v) :: ms => do
    let k ← key k
    let a ← d v
    return (k, a) :: (← entries d ms)

/-- An object with any keys; of two members with one key the later counts. -/
def map (d : Decoder α) : Decoder (SortedMap String α)
  | .object ms => (entries d ms).map .ofList
  | j => .error (j.mismatch "a map")

inductive Presence where
  | required
  /-- It may be missing in an object, not in a list. -/
  | nullable
  | defaulted
deriving DecidableEq

structure Field (σ : Type) where
  name : String
  presence : Presence
  set : σ → Json → Except JsonFault σ

namespace Field

def of (presence : Presence) (name : String) (d : Decoder α) (set : σ → α → σ) : Field σ where
  name := name
  presence := presence
  set draft j := (d j).map (set draft)

def required (name : String) (d : Decoder α) (set : σ → α → σ) : Field σ := of .required name d set

def defaulted (name : String) (d : Decoder α) (set : σ → α → σ) : Field σ := of .defaulted name d set

/-- A field that may be null or missing, and then has the value that the draft has. -/
def nullable (name : String) (d : Decoder α) (set : σ → Option α → σ) : Field σ :=
  of .nullable name d.optional set

end Field

/-- Sets the fields that the members name. Other members are passed over. -/
def setMembers (fields : List (Field σ)) :
    List String → σ → List (Json × Json) → Except JsonFault (List String × σ)
  | seen, draft, [] => .ok (seen, draft)
  | seen, draft, (k, v) :: ms => do
    let k ← key k
    match fields.find? (·.name = k) with
    | some field =>
      if k ∈ seen then .error (.data (.duplicateField k))
      else setMembers fields (k :: seen) (← field.set draft v) ms
    | none =>
      v.skip
      setMembers fields seen draft ms

def afterFields : List Json → Except JsonFault Unit
  | [] => .ok ()
  | .broken .trailingComma :: _ => .error (.text .trailingComma)
  | .broken .endInList :: _ => .error (.text .endInList)
  | _ => .error (.text .trailingCharacters)

/-- Sets the fields one by one from the items of a list. Those that are left are counted from the
given position on. -/
def setItems (expected : String) : Nat → List (Field σ) → σ → List Json → Except JsonFault σ
  | _, [], draft, js => do
    afterFields js
    return draft
  | position, field :: fields, draft, [] =>
    if field.presence = .defaulted then setItems expected (position + 1) fields draft []
    else .error (.data (.invalidLength position expected))
  | position, field :: fields, draft, j :: js => do
    setItems expected (position + 1) fields (← field.set draft j) js

/-- A record with fields in the given order, as an object or as the list of its fields. -/
def record (what : String) (fields : List (Field σ)) (draft : σ) : Decoder σ
  | .object ms => do
    let (seen, draft) ← setMembers fields [] draft ms
    match fields.find? fun f => f.presence = .required ∧ f.name ∉ seen with
    | some f => .error (.data (.missingField f.name))
    | none => return draft
  | .list js => setItems s!"{what} with {fields.length} elements" 0 fields draft js
  | j => .error (j.mismatch what)

inductive Variant (α : Type) where
  | plain (a : α)
  | payload (expected : String) (d : Decoder α)

def unit : Decoder Unit
  | .null => .ok ()
  | j => .error (j.mismatch "unit")

def variantNamed (variants : List (String × Variant α)) (name : String) :
    Except JsonFault (Variant α) :=
  match variants.lookup name with
  | some v => .ok v
  | none => .error (.data (.unknownVariant name (variants.map (·.1))))

/-- The name of an alternative, or an object with the name as its only key. -/
def oneOf (variants : List (String × Variant α)) : Decoder α
  | .string name => do
    match ← variantNamed variants name with
    | .plain a => return a
    | .payload expected _ => .error (.data (.invalidType .unitVariant expected))
  | .object ((k, v) :: ms) => do
    let name ← key k
    let a ← match ← variantNamed variants name with
      | .plain a => (unit v).map fun _ => a
      | .payload _ d => d v
    match ms with
    | [] => return a
    | (.broken .endInObject, _) :: _ => .error (.text .endInObject)
    | _ => .error (.text .expectedValue)
  | .object [] => .error (.text .keyNotString)
  | .unreadable f | .broken f => .error (.text f)
  | _ => .error (.text .expectedValue)

def enumeration (cases : List (String × α)) : Decoder α :=
  oneOf (cases.map fun (name, a) => (name, .plain a))

end Decoder

def Decoder.decode {α : Type} (d : Decoder α) (value : Json × Bool) : Except JsonFault α := do
  let a ← d value.1
  if value.2 then .error (.text .trailingCharacters) else return a

end SpiderDiagrams
