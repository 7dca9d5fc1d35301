import DeclTree.Json.Basic
/-!
Reading typed values out of JSON. A record is written as an object, or as an array of its fields in
order. In an object unknown keys are passed over, and a known key may occur once at most.
-/
namespace DeclTree.Json

/-- The known fields of a record that are present. -/
structure Fields where
  entries : List (String × Json)

namespace Fields

/-- A field that must be present. -/
def required {α : Type} (fs : Fields) (name : String) (decode : Json → Option α) : Option α :=
  (fs.entries.lookup name).bind decode

/-- A field that may be absent or null. -/
def optional {α : Type} (fs : Fields) (name : String) (decode : Json → Option α) :
    Option (Option α) :=
  match fs.entries.lookup name with
  | none | some null => some none
  | some value => (decode value).map some

/-- A field that may be absent, but not null. -/
def defaulted {α : Type} (fs : Fields) (name : String) (default : α)
    (decode : Json → Option α) : Option α :=
  match fs.entries.lookup name with
  | none => some default
  | some value => decode value

end Fields

/-- How strictly a record is read. -/
structure RecordRule where
  /-- Whether an array may stop before the last field. -/
  allowsShortArray : Bool := false
  /-- Whether an object may have keys that are no fields. -/
  allowsUnknown : Bool := true

/-- The members of an object with their texts as keys, if all keys have one. -/
def keyed? (members : List (JsonText × Json)) : Option (List (String × Json)) :=
  members.mapM fun (key, value) => key.map (·, value)

/-- Reads the fields with the given names by a rule. -/
def fieldsBy? (rule : RecordRule) (names : List String) (j : Json) : Option Fields :=
  match j with
  | array items =>
    if items.length = names.length ∨ (rule.allowsShortArray ∧ items.length < names.length) then
      some ⟨names.zip items⟩
    else none
  | object members => do
    let members ← keyed? members
    let (known, unknown) := members.partition fun (key, _) => names.contains key
    if (known.map (·.1)).Nodup ∧ (rule.allowsUnknown ∨ unknown.isEmpty) then some ⟨known⟩
    else none
  | _ => none

/-- Reads the fields with the given names: unknown ones may be there, and none of an array may be
missing. -/
def fields? (j : Json) (names : List String) : Option Fields := fieldsBy? {} names j

def nat? : Json → Option Nat
  | nat n => some n
  | _ => none

def uint32? (j : Json) : Option UInt32 := do
  let n ← j.nat?
  if n < UInt32.size then some (UInt32.ofNat n) else none

def uint16? (j : Json) : Option UInt16 := do
  let n ← j.nat?
  if n < UInt16.size then some (UInt16.ofNat n) else none

def bool? : Json → Option Bool
  | bool b => some b
  | _ => none

def str? : Json → Option String
  | text s => s
  | _ => none

def list? {α : Type} (decode : Json → Option α) : Json → Option (List α)
  | array items => items.mapM decode
  | _ => none

/-- A choice without arguments: its name, or an object with the name as its one key and null. -/
def choice? {α : Type} (ofName? : String → Option α) : Json → Option α
  | text (some s) => ofName? s
  | object [(some s, null)] => ofName? s
  | _ => none

end DeclTree.Json
