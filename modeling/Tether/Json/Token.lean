import Tether.Json.Numeral
import Tether.Json.Quoted

/-! # JSON tokens

A text is a list of tokens with blanks between them. Reading never fails: a fault is itself a token,
and the last one. -/

namespace Tether.Json

inductive Token where
  | openList
  | closeList
  | openObject
  | closeObject
  | comma
  | colon
  | null
  | bool (b : Bool)
  | number (n : Numeral)
  | text (q : Quoted)
  /-- A number that the end of the text cuts short. -/
  | cutNumber
  | broken (f : Fault)
  deriving DecidableEq

namespace Token

/-- Space, tab, line feed and carriage return. -/
def isBlank (c : Char) : Bool :=
  c == ' ' || c == '\t' || c == '\n' || c == '\r'

/-- The rest of a literal, character by character. -/
def literal (whole : Token) : List Char → List Char → Token × List Char
  | [], cs => (whole, cs)
  | _ :: _, [] => (.broken .cutShort, [])
  | e :: es, c :: cs => if c = e then literal whole es cs else (.broken .malformed, [])

def numeral (cs : List Char) : Token × List Char :=
  match Numeral.read cs with
  | .ok (n, rest) => (.number n, rest)
  | .error .cutShort => (.cutNumber, [])
  | .error f => (.broken f, [])

/-- The token that starts with `c`, and what follows it. -/
def next (c : Char) (cs : List Char) : Token × List Char :=
  match c with
  | '[' => (.openList, cs)
  | ']' => (.closeList, cs)
  | '{' => (.openObject, cs)
  | '}' => (.closeObject, cs)
  | ',' => (.comma, cs)
  | ':' => (.colon, cs)
  | 'n' => literal .null ['u', 'l', 'l'] cs
  | 't' => literal (.bool true) ['r', 'u', 'e'] cs
  | 'f' => literal (.bool false) ['a', 'l', 's', 'e'] cs
  | '"' =>
    let (q, rest) := Quoted.read cs
    (.text q, rest)
  | c => if c = '-' ∨ c.isDigit then numeral (c :: cs) else (.broken .malformed, [])

/-! ## Progress -/

theorem length_literal_le (whole : Token) (es cs : List Char) :
    (literal whole es cs).2.length ≤ cs.length := by
  fun_induction literal whole es cs <;> simp_all
  omega

theorem length_read_quoted_le (cs : List Char) : (Quoted.read cs).2.length ≤ cs.length := by
  fun_induction Quoted.read cs <;> simp_all [Quoted.withPiece, Quoted.stopped] <;> omega

theorem length_numeral_le (c : Char) (cs : List Char) :
    (numeral (c :: cs)).2.length ≤ cs.length := by
  unfold numeral
  split
  · rename_i h
    have := Numeral.length_read_lt h
    simp only [List.length_cons] at this
    exact Nat.le_of_lt_succ this
  · simp
  · simp

theorem length_next_le (c : Char) (cs : List Char) : (next c cs).2.length ≤ cs.length := by
  unfold next
  split
  any_goals exact Nat.le_refl _
  any_goals exact length_literal_le _ _ _
  · exact length_read_quoted_le cs
  · split
    · exact length_numeral_le _ cs
    · simp

/-! ## Token lists -/

def ofChars : List Char → List Token
  | [] => []
  | c :: cs =>
    if isBlank c then ofChars cs
    else
      let r := next c cs
      r.1 :: ofChars r.2
termination_by cs => cs.length
decreasing_by
  · simp
  · have := length_next_le c cs
    simp only [List.length_cons]
    omega

end Token

end Tether.Json
