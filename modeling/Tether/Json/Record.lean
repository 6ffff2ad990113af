import Tether.Json.Meaning

/-! # Records in JSON

A record is written as an object of named members in any order, or as the list of its fields in
their own order. Either way fields may be left out. Strange members are passed over; a field given
twice is a fault. -/

namespace Tether.Json

/-- A field of a record: its name, and how its value changes a record. -/
structure RecordField (ρ : Type) where
  name : String
  read : Tree → ρ → Except Fault ρ

namespace Tree

/-- The fault of a tree that stands where its type is wrong. A fault inside a scalar comes first; of
a list or an object nothing is looked at. -/
def mistake : Tree → Fault
  | .list _ _ | .object _ _ => .mistyped
  | t =>
    match t.toContent 0 with
    | .error f => f
    | .ok _ => .mistyped

def toBool : Tree → Except Fault Bool
  | .bool b => .ok b
  | t => .error t.mistake

def toText : Tree → Except Fault String
  | .text q => q.text
  | t => .error t.mistake

/-- A text, or `null` for none. -/
def toOptionalText : Tree → Except Fault (Option String)
  | .null => .ok none
  | t => t.toText.map some

variable {ρ : Type}

/-- Reads fields in their own order. An item without a field is malformed. -/
def readItems : List (RecordField ρ) → List Tree → ρ → Except Fault ρ
  | _, [], r => .ok r
  | [], _ :: _, _ => .error .malformed
  | field :: fields, t :: ts, r => do readItems fields ts (← field.read t r)

/-- Reads members in the order given, the names in `seen` having been given before. -/
def readMembers (fields : List (RecordField ρ)) :
    List String → List (Quoted × Tree) → ρ → Except Fault ρ
  | _, [], r => .ok r
  | seen, (key, t) :: members, r => do
    let name ← key.text
    match fields.find? fun field => field.name = name with
    | none =>
      match t.firstFault with
      | some f => .error f
      | none => readMembers fields seen members r
    | some field =>
      if name ∈ seen then .error .mistyped
      else readMembers fields (name :: seen) members (← field.read t r)

/-- Reads a record. What is left out stays as in `defaults`. -/
def readRecord (fields : List (RecordField ρ)) (defaults : ρ) : Tree → Except Fault ρ
  | .list items stop => do
    let r ← readItems fields items defaults
    checkStop stop
    return r
  | .object members stop => do
    let r ← readMembers fields [] members defaults
    checkStop stop
    return r
  | t => .error t.mistake

end Tree

end Tether.Json
