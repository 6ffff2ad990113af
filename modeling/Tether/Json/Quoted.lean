import Tether.Json.Fault

/-! # JSON strings

A string is kept as the characters and escaped code units it is spelled with, together with the
fault that ended it early, if any. Code units outside the basic plane are only paired up when the
text is asked for. -/

namespace Tether.Json

/-- One spelled part of a string: a character, or a code unit by its four hexadecimal digits. -/
inductive Piece where
  | plain (c : Char)
  | unit (n : Nat)
  deriving DecidableEq

/-- The inside of a string, up to its closing quote or to a fault. -/
structure Quoted where
  pieces : List Piece
  fault : Option Fault
  deriving DecidableEq

namespace Quoted

/-! ## Reading -/

/-- The character behind a backslash and a letter. -/
def unescape? : Char → Option Char
  | '"' => some '"'
  | '\\' => some '\\'
  | '/' => some '/'
  | 'b' => some '\x08'
  | 'f' => some '\x0c'
  | 'n' => some '\n'
  | 'r' => some '\r'
  | 't' => some '\t'
  | _ => none

/-- The value of a hexadecimal digit of either case. -/
def hexValue? (c : Char) : Option Nat :=
  if c.isDigit then some (c.toNat - '0'.toNat)
  else if 'a' ≤ c ∧ c ≤ 'f' then some (c.toNat - 'a'.toNat + 10)
  else if 'A' ≤ c ∧ c ≤ 'F' then some (c.toNat - 'A'.toNat + 10)
  else none

/-- The code unit that four hexadecimal digits spell. -/
def unit? (a b c d : Char) : Option Nat := do
  return ((← hexValue? a) * 16 + (← hexValue? b)) * 256 + ((← hexValue? c) * 16 + (← hexValue? d))

/-- The fault of a code unit without four digits: a text with fewer than four octets left is cut
short. -/
def unitFault (cs : List Char) : Fault :=
  if (cs.take 4).foldl (fun size c => size + c.utf8Size) 0 < 4 then .cutShort else .malformed

def stopped (f : Fault) : Quoted × List Char :=
  (⟨[], some f⟩, [])

def withPiece (p : Piece) (read : Quoted × List Char) : Quoted × List Char :=
  ({ read.1 with pieces := p :: read.1.pieces }, read.2)

/-- The string whose opening quote has just been passed, and what follows it. -/
def read : List Char → Quoted × List Char
  | [] => stopped .cutShort
  | '"' :: cs => (⟨[], none⟩, cs)
  | '\\' :: 'u' :: a :: b :: c :: d :: cs =>
    match unit? a b c d with
    | some n => withPiece (.unit n) (read cs)
    | none => stopped .malformed
  | '\\' :: 'u' :: cs => stopped (unitFault cs)
  | '\\' :: c :: cs =>
    match unescape? c with
    | some c => withPiece (.plain c) (read cs)
    | none => stopped .malformed
  | ['\\'] => stopped .cutShort
  | c :: cs => if c.toNat < 0x20 then stopped .malformed else withPiece (.plain c) (read cs)

/-! ## Text -/

def isHighSurrogate (n : Nat) : Bool := 0xd800 ≤ n && n < 0xdc00

def isLowSurrogate (n : Nat) : Bool := 0xdc00 ≤ n && n < 0xe000

/-- The character two surrogates stand for together. -/
def pairChar (high low : Nat) : Char :=
  .ofNat (0x10000 + (high - 0xd800) * 0x400 + (low - 0xdc00))

/-- The characters that pieces spell. A surrogate counts only in a pair, high before low. -/
def chars (fault : Option Fault) : List Piece → Except Fault (List Char)
  | [] => match fault with
    | some f => .error f
    | none => .ok []
  | .plain c :: ps => return c :: (← chars fault ps)
  | .unit n :: ps =>
    if isHighSurrogate n then
      match ps with
      | .unit m :: ps =>
        if isLowSurrogate m then return pairChar n m :: (← chars fault ps) else .error .malformed
      | .plain _ :: _ => .error .malformed
      | [] => .error (fault.getD .malformed)
    else if isLowSurrogate n then .error .malformed
    else return Char.ofNat n :: (← chars fault ps)

/-- The text a string spells, or the first fault in it. -/
def text (q : Quoted) : Except Fault String :=
  (chars q.fault q.pieces).map String.ofList

end Quoted

end Tether.Json
