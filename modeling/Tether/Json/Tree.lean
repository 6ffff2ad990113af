import Tether.Json.Token

/-! # JSON trees

The tree of a text is its structure as far as it goes. Reading never fails: where a fault ends the
text early, the tree says so at that place, so that whoever walks the tree from left to right meets
the first problem of the text first. -/

namespace Tether.Json

/-- The structure of a text. A container carries the fault that ended it between two parts. -/
inductive Tree where
  | null
  | bool (b : Bool)
  | number (n : Numeral)
  | text (q : Quoted)
  | list (items : List Tree) (stop : Option Fault)
  | object (members : List (Quoted × Tree)) (stop : Option Fault)
  /-- A number that the end of the text cuts short. -/
  | cutNumber
  /-- A place where a value should stand and none does. -/
  | broken (f : Fault)

/-- A container around the place being read, with its earlier parts, latest first. -/
inductive Frame where
  | list (items : List Tree)
  | object (members : List (Quoted × Tree)) (key : Quoted)

/-- What may come next. Each place stands inside `outer` frames, innermost first. -/
inductive Place where
  | value (outer : List Frame)
  /-- The first item of a list, or its end. -/
  | firstItem (outer : List Frame)
  /-- A comma after an item, or the end of the list. -/
  | afterItem (items : List Tree) (outer : List Frame)
  /-- The first key of an object, or its end. -/
  | firstKey (outer : List Frame)
  | nextKey (members : List (Quoted × Tree)) (outer : List Frame)
  | colon (members : List (Quoted × Tree)) (key : Quoted) (outer : List Frame)
  /-- A comma after a member, or the end of the object. -/
  | afterMember (members : List (Quoted × Tree)) (outer : List Frame)
  | finished (tree : Tree)
  /-- Anything: a whole value has been read, and more than it. -/
  | surplus (tree : Tree)
  /-- Anything: a fault has ended the reading. -/
  | halted (tree : Tree)

namespace Place

/-- The place after a value has been read. -/
def deliver (t : Tree) : List Frame → Place
  | [] => .finished t
  | .list items :: outer => .afterItem (t :: items) outer
  | .object members key :: outer => .afterMember ((key, t) :: members) outer

/-- The tree of a text in which nothing is read after `t`. -/
def abandon (t : Tree) : List Frame → Tree
  | [] => t
  | .list items :: outer => abandon (.list (t :: items).reverse (some .cutShort)) outer
  | .object members key :: outer =>
    abandon (.object ((key, t) :: members).reverse (some .cutShort)) outer

/-- The place after a token where a value should start. -/
def startValue (outer : List Frame) : Token → Place
  | .openList => .firstItem outer
  | .openObject => .firstKey outer
  | .null => deliver .null outer
  | .bool b => deliver (.bool b) outer
  | .number n => deliver (.number n) outer
  | .text q => deliver (.text q) outer
  | .cutNumber => deliver .cutNumber outer
  | .broken f => deliver (.broken f) outer
  | .closeList | .closeObject | .comma | .colon => .halted (abandon (.broken .malformed) outer)

def advance : Place → Token → Place
  | .value outer, t => startValue outer t
  | .firstItem outer, .closeList => deliver (.list [] none) outer
  | .firstItem outer, t => startValue (.list [] :: outer) t
  | .afterItem items outer, .comma => .value (.list items :: outer)
  | .afterItem items outer, .closeList => deliver (.list items.reverse none) outer
  | .afterItem items outer, _ => .halted (abandon (.list items.reverse (some .malformed)) outer)
  | .firstKey outer, .closeObject => deliver (.object [] none) outer
  | .firstKey outer, .text q => .colon [] q outer
  | .firstKey outer, _ => .halted (abandon (.object [] (some .malformed)) outer)
  | .nextKey members outer, .text q => .colon members q outer
  | .nextKey members outer, _ =>
    .halted (abandon (.object members.reverse (some .malformed)) outer)
  | .colon members key outer, .colon => .value (.object members key :: outer)
  | .colon members key outer, _ =>
    .halted (abandon (.broken .malformed) (.object members key :: outer))
  | .afterMember members outer, .comma => .nextKey members outer
  | .afterMember members outer, .closeObject => deliver (.object members.reverse none) outer
  | .afterMember members outer, _ =>
    .halted (abandon (.object members.reverse (some .malformed)) outer)
  | .finished t, _ => .surplus t
  | .surplus t, _ => .surplus t
  | .halted t, _ => .halted t

def run (p : Place) (ts : List Token) : Place :=
  ts.foldl advance p

/-- The tree of a text that ends at this place. -/
def tree : Place → Tree
  | .value outer => abandon (.broken .cutShort) outer
  | .firstItem outer => abandon (.list [] (some .cutShort)) outer
  | .afterItem items outer => abandon (.list items.reverse (some .cutShort)) outer
  | .firstKey outer => abandon (.object [] (some .cutShort)) outer
  | .nextKey members outer => abandon (.object members.reverse (some .cutShort)) outer
  | .colon members key outer => abandon (.broken .cutShort) (.object members key :: outer)
  | .afterMember members outer => abandon (.object members.reverse (some .cutShort)) outer
  | .finished t | .surplus t | .halted t => t

/-- Whether anything follows a whole value. -/
def isSurplus : Place → Bool
  | .surplus _ => true
  | _ => false

end Place

/-- A text read as one value: its tree, and whether anything but blanks follows it. -/
structure Document where
  tree : Tree
  surplus : Bool

namespace Document

def ofTokens (ts : List Token) : Document :=
  let last := (Place.value []).run ts
  ⟨last.tree, last.isSurplus⟩

def ofText (s : String) : Document :=
  ofTokens (Token.ofChars s.toList)

/-- The meaning of a text under a reading of its tree. What follows the value is malformed. -/
def interpret {α : Type} (d : Document) (read : Tree → Except Fault α) : Except Fault α := do
  let a ← read d.tree
  if d.surplus then .error .malformed else return a

end Document

end Tether.Json
