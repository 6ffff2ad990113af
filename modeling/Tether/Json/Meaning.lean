import Tether.Json.Number
import Tether.Json.Tree
import Tether.Octets

/-! # What a JSON text says

The fields of an object are in the order of their keys' UTF-8 octets; of members with one key the last
counts. Containers may be nested to a fixed depth. -/

namespace Tether.Json

/-! ## Members by key -/

section

variable {α : Type}

/-- Keys are ordered by their UTF-8 octets. -/
def keyBefore (a b : String) : Bool :=
  Octets.ofText a < Octets.ofText b

/-- The fields with one more, in key order; a field of the same key is replaced. -/
def insertField (key : String) (v : α) : List (String × α) → List (String × α)
  | [] => [(key, v)]
  | (k, w) :: fields =>
    if keyBefore key k then (key, v) :: (k, w) :: fields
    else if keyBefore k key then (k, w) :: insertField key v fields
    else (key, v) :: fields

/-- The fields in key order, the last one of each key. -/
def sortFields (fields : List (String × α)) : List (String × α) :=
  fields.foldl (fun sorted field => insertField field.1 field.2 sorted) []

end

/-! ## Contents -/

/-- What is said, with the spelling of numbers, texts and objects left behind. -/
inductive Content where
  | null
  | bool (b : Bool)
  | number (n : Number)
  | text (s : String)
  | list (items : List Content)
  | object (fields : List (String × Content))

/-- A number, if it is finite. -/
def Content.ofNumber : Number → Content
  | .float x => if x.isFinite then .number (.float x) else .null
  | n => .number n

def maxDepth : Nat := 127

/-- The fault that ends a container, if one does. -/
def checkStop : Option Fault → Except Fault Unit
  | none => .ok ()
  | some f => .error f

namespace Tree

mutual

/-- What a tree says, where `room` more levels of containers may be opened. -/
def toContent (room : Nat) : Tree → Except Fault Content
  | .null => return .null
  | .bool b => return .bool b
  | .number n => return .ofNumber (← n.toNumber)
  | .text q => return .text (← q.text)
  | .list items stop =>
    match room with
    | 0 => .error .malformed
    | room + 1 => do
      let contents ← toItems room items
      checkStop stop
      return .list contents
  | .object members stop =>
    match room with
    | 0 => .error .malformed
    | room + 1 => do
      let fields ← toFields room members
      checkStop stop
      return .object (sortFields fields)
  | .cutNumber => .error .cutShort
  | .broken f => .error f

def toItems (room : Nat) : List Tree → Except Fault (List Content)
  | [] => return []
  | t :: ts => return (← toContent room t) :: (← toItems room ts)

def toFields (room : Nat) : List (Quoted × Tree) → Except Fault (List (String × Content))
  | [] => return []
  | (key, t) :: ms => return (← key.text, ← toContent room t) :: (← toFields room ms)

end

/-! ## Passing over -/

mutual

/-- The first fault in a tree that is only passed over. Neither the range of numbers nor the pairing
of surrogates nor the depth matters there, and a number cut short is malformed. -/
def firstFault : Tree → Option Fault
  | .null | .bool _ | .number _ => none
  | .text q => q.fault
  | .list items stop => firstFaultItems items <|> stop
  | .object members stop => firstFaultMembers members <|> stop
  | .cutNumber => some .malformed
  | .broken f => some f

def firstFaultItems : List Tree → Option Fault
  | [] => none
  | t :: ts => firstFault t <|> firstFaultItems ts

def firstFaultMembers : List (Quoted × Tree) → Option Fault
  | [] => none
  | (key, t) :: ms => key.fault <|> firstFault t <|> firstFaultMembers ms

end

end Tree

def content? (s : String) : Except Fault Content :=
  (Document.ofText s).interpret (Tree.toContent maxDepth)

end Tether.Json
