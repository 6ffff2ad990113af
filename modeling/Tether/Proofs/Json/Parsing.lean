import Mathlib.Data.List.Basic
import Mathlib.Data.List.Induction
import Tether.Json.Meaning
import Tether.Proofs.Json.Lexing

/-! # Token lists and their trees

A tree without faults is written in tokens in one way, and read from no other tokens. So a text has a
meaning if and only if its tokens are those of a tree that has one. -/

namespace Tether.Json

/-! ## Separators -/

theorem intercalate_concat {α : Type} (sep : List α) (xs : List (List α)) (x : List α) :
    sep.intercalate (xs ++ [x]) = xs.flatMap (· ++ sep) ++ x := by
  induction xs with
  | nil => simp
  | cons y ys ih =>
      rw [List.cons_append, List.intercalate_cons_of_ne_nil (by simp), ih, List.flatMap_cons]
      simp only [List.append_assoc]

theorem intercalate_append_sep {α : Type} (sep : List α) {xs : List (List α)} (h : xs ≠ []) :
    sep.intercalate xs ++ sep = xs.flatMap (· ++ sep) := by
  induction xs using List.reverseRecOn with
  | nil => exact absurd rfl h
  | append_singleton xs x _ => simp [intercalate_concat]

namespace Tree

/-! ## Parts of a tree -/

/-- The values that stand directly inside a tree. -/
def parts : Tree → List Tree
  | .list items _ => items
  | .object members _ => members.map Prod.snd
  | _ => []

theorem sizeOf_lt_of_mem_parts {t u : Tree} (h : u ∈ t.parts) : sizeOf u < sizeOf t := by
  cases t with
  | list items stop =>
      have hu : sizeOf u < sizeOf items := List.sizeOf_lt_of_mem h
      rw [list.sizeOf_spec]
      omega
  | object members stop =>
      obtain ⟨⟨key, value⟩, hm, rfl⟩ := List.mem_map.mp h
      have hsize : sizeOf (key, value) < sizeOf members := List.sizeOf_lt_of_mem hm
      rw [Prod.mk.sizeOf_spec] at hsize
      rw [object.sizeOf_spec]
      change sizeOf value < _
      omega
  | _ => simp [parts] at h

/-- A property holds of every tree if it holds of each one whose parts all have it. -/
@[elab_as_elim]
theorem induction {P : Tree → Prop} (whole : ∀ t : Tree, (∀ u ∈ t.parts, P u) → P t) (t : Tree) :
    P t :=
  whole t fun u hu =>
    have : sizeOf u < sizeOf t := sizeOf_lt_of_mem_parts hu
    induction whole u
termination_by sizeOf t

theorem firstFaultItems_eq_none {ts : List Tree} :
    firstFaultItems ts = none ↔ ∀ t ∈ ts, t.firstFault = none := by
  induction ts with
  | nil => simp [firstFaultItems]
  | cons t ts ih => simp [firstFaultItems, ih]

theorem firstFaultMembers_eq_none {ms : List (Quoted × Tree)} :
    firstFaultMembers ms = none ↔ ∀ m ∈ ms, m.1.fault = none ∧ m.2.firstFault = none := by
  induction ms with
  | nil => simp [firstFaultMembers]
  | cons m ms ih => simp [firstFaultMembers, ih, and_assoc]

theorem firstFault_list {items : List Tree} {stop : Option Fault} :
    (list items stop).firstFault = none ↔ (∀ t ∈ items, t.firstFault = none) ∧ stop = none := by
  simp [firstFault, firstFaultItems_eq_none]

theorem firstFault_object {members : List (Quoted × Tree)} {stop : Option Fault} :
    (object members stop).firstFault = none ↔
      (∀ m ∈ members, m.1.fault = none ∧ m.2.firstFault = none) ∧ stop = none := by
  simp [firstFault, firstFaultMembers_eq_none]

/-! ## Tokens of a tree -/

mutual

/-- The tokens that a tree without faults is written in. -/
def tokens : Tree → List Token
  | .null => [.null]
  | .bool b => [.bool b]
  | .number n => [.number n]
  | .text q => [.text q]
  | .list items _ => .openList :: ([.comma].intercalate (tokensOfItems items) ++ [.closeList])
  | .object members _ =>
    .openObject :: ([.comma].intercalate (tokensOfMembers members) ++ [.closeObject])
  | .cutNumber => [.cutNumber]
  | .broken f => [.broken f]

def tokensOfItems : List Tree → List (List Token)
  | [] => []
  | t :: ts => tokens t :: tokensOfItems ts

def tokensOfMembers : List (Quoted × Tree) → List (List Token)
  | [] => []
  | (key, t) :: ms => (.text key :: .colon :: tokens t) :: tokensOfMembers ms

end

/-- The tokens of a member of an object. -/
def tokensOfMember (m : Quoted × Tree) : List Token :=
  .text m.1 :: .colon :: m.2.tokens

@[simp] theorem tokensOfItems_eq (ts : List Tree) : tokensOfItems ts = ts.map tokens := by
  induction ts with
  | nil => rfl
  | cons t ts ih => rw [tokensOfItems, ih, List.map_cons]

@[simp] theorem tokensOfMembers_eq (ms : List (Quoted × Tree)) :
    tokensOfMembers ms = ms.map tokensOfMember := by
  induction ms with
  | nil => rfl
  | cons m ms ih => rw [tokensOfMembers, ih, List.map_cons, tokensOfMember]

/-- No tree starts with the end of a list. -/
theorem tokens_eq_cons (t : Tree) : ∃ tok rest, t.tokens = tok :: rest ∧ tok ≠ .closeList := by
  cases t <;> simp [tokens]

theorem forall_mem_intercalate {P : Token → Prop} (hcomma : P .comma) {parts : List (List Token)}
    (h : ∀ part ∈ parts, ∀ tok ∈ part, P tok) : ∀ tok ∈ [Token.comma].intercalate parts, P tok := by
  induction parts using List.reverseRecOn with
  | nil => exact List.forall_mem_nil _
  | append_singleton parts part _ =>
      rw [intercalate_concat]
      simp only [List.forall_mem_append, List.forall_mem_flatMap, List.forall_mem_singleton] at h ⊢
      exact ⟨fun p hp => ⟨h.1 p hp, hcomma⟩, h.2⟩

/-- A tree without faults is written in tokens without faults. -/
theorem isWhole_of_mem_tokens {t : Tree} (h : t.firstFault = none) :
    ∀ tok ∈ t.tokens, tok.isWhole := by
  induction t using Tree.induction with
  | whole t ih =>
      cases t with
      | null | bool b | number n => simp [tokens, Token.isWhole]
      | text q =>
          rw [firstFault] at h
          simp [tokens, Token.isWhole, h]
      | list items stop =>
          have hparts := (firstFault_list.mp h).1
          have hinside : ∀ part ∈ items.map tokens, ∀ tok ∈ part, tok.isWhole := by
            intro part hpart
            obtain ⟨t, ht, rfl⟩ := List.mem_map.mp hpart
            exact ih t ht (hparts t ht)
          rw [tokens, tokensOfItems_eq, List.forall_mem_cons, List.forall_mem_append,
            List.forall_mem_singleton]
          exact ⟨rfl, forall_mem_intercalate (P := fun tok => tok.isWhole) rfl hinside, rfl⟩
      | object members stop =>
          have hparts := (firstFault_object.mp h).1
          have hinside : ∀ part ∈ members.map tokensOfMember, ∀ tok ∈ part, tok.isWhole := by
            intro part hpart
            obtain ⟨m, hm, rfl⟩ := List.mem_map.mp hpart
            obtain ⟨hkey, hvalue⟩ := hparts m hm
            rw [tokensOfMember, List.forall_mem_cons, List.forall_mem_cons]
            refine ⟨?_, rfl, ih m.2 (List.mem_map_of_mem hm) hvalue⟩
            simp [Token.isWhole, hkey]
          rw [tokens, tokensOfMembers_eq, List.forall_mem_cons, List.forall_mem_append,
            List.forall_mem_singleton]
          exact ⟨rfl, forall_mem_intercalate (P := fun tok => tok.isWhole) rfl hinside, rfl⟩
      | cutNumber => cases h
      | broken f => cases h

end Tree

namespace Place

open Json.Tree (tokensOfMember)

theorem run_append (p : Place) (ts us : List Token) : p.run (ts ++ us) = (p.run ts).run us :=
  List.foldl_append

/-! ## Reading the tokens of a tree -/

/-- The first item of a list is read like any other value. -/
theorem run_firstItem {ts : List Tree} (h : ts ≠ []) (outer : List Frame) (rest : List Token) :
    (firstItem outer).run ([.comma].intercalate (ts.map Tree.tokens) ++ rest) =
      (value (.list [] :: outer)).run ([.comma].intercalate (ts.map Tree.tokens) ++ rest) := by
  cases ts with
  | nil => exact absurd rfl h
  | cons t ts =>
      obtain ⟨tok, more, htok, hne⟩ := t.tokens_eq_cons
      rw [List.map_cons, htok, List.intercalate_cons_cons_left, List.cons_append]
      cases tok with
      | closeList => exact absurd rfl hne
      | _ => rfl

/-- The first member of an object is read like any other. -/
theorem run_firstKey {ms : List (Quoted × Tree)} (h : ms ≠ []) (outer : List Frame)
    (rest : List Token) :
    (firstKey outer).run ([.comma].intercalate (ms.map tokensOfMember) ++ rest) =
      (nextKey [] outer).run ([.comma].intercalate (ms.map tokensOfMember) ++ rest) := by
  cases ms with
  | nil => exact absurd rfl h
  | cons m ms =>
      rw [List.map_cons, tokensOfMember, List.intercalate_cons_cons_left]
      rfl

theorem run_items {ts : List Tree}
    (h : ∀ t ∈ ts, ∀ outer, (value outer).run t.tokens = deliver t outer) (items : List Tree)
    (outer : List Frame) :
    (value (.list items :: outer)).run ((ts.map Tree.tokens).flatMap (· ++ [.comma])) =
      value (.list (ts.reverse ++ items) :: outer) := by
  induction ts generalizing items with
  | nil => rfl
  | cons t ts ih =>
      obtain ⟨ht, hts⟩ := List.forall_mem_cons.mp h
      rw [List.map_cons, List.flatMap_cons, run_append, run_append, ht]
      change (value (.list (t :: items) :: outer)).run _ = _
      rw [ih hts, List.reverse_cons, List.append_assoc, List.singleton_append]

theorem run_members {ms : List (Quoted × Tree)}
    (h : ∀ m ∈ ms, ∀ outer, (value outer).run m.2.tokens = deliver m.2 outer)
    (members : List (Quoted × Tree)) (outer : List Frame) :
    (nextKey members outer).run ((ms.map tokensOfMember).flatMap (· ++ [.comma])) =
      nextKey (ms.reverse ++ members) outer := by
  induction ms generalizing members with
  | nil => rfl
  | cons m ms ih =>
      obtain ⟨hm, hms⟩ := List.forall_mem_cons.mp h
      rw [List.map_cons, List.flatMap_cons, run_append, run_append]
      change (((value (.object members m.1 :: outer)).run m.2.tokens).run _).run _ = _
      rw [hm]
      change (nextKey (m :: members) outer).run _ = _
      rw [ih hms, List.reverse_cons, List.append_assoc, List.singleton_append]

theorem run_list {items : List Tree}
    (h : ∀ t ∈ items, ∀ outer, (value outer).run t.tokens = deliver t outer) (outer : List Frame) :
    (value outer).run (Tree.list items none).tokens = deliver (.list items none) outer := by
  rw [Tree.tokens, Tree.tokensOfItems_eq]
  change (firstItem outer).run _ = _
  rcases List.eq_nil_or_concat' items with rfl | ⟨ts, t, rfl⟩
  · rfl
  · rw [List.forall_mem_append, List.forall_mem_singleton] at h
    rw [run_firstItem (by simp), List.map_append, List.map_singleton, intercalate_concat, run_append,
      run_append, run_items h.1, h.2, List.append_nil]
    change deliver (.list (t :: ts.reverse).reverse none) outer = _
    rw [List.reverse_cons, List.reverse_reverse]

theorem run_object {members : List (Quoted × Tree)}
    (h : ∀ m ∈ members, ∀ outer, (value outer).run m.2.tokens = deliver m.2 outer)
    (outer : List Frame) :
    (value outer).run (Tree.object members none).tokens = deliver (.object members none) outer := by
  rw [Tree.tokens, Tree.tokensOfMembers_eq]
  change (firstKey outer).run _ = _
  rcases List.eq_nil_or_concat' members with rfl | ⟨ms, m, rfl⟩
  · rfl
  · rw [List.forall_mem_append, List.forall_mem_singleton] at h
    rw [run_firstKey (by simp), List.map_append, List.map_singleton, intercalate_concat, run_append,
      run_append, run_members h.1, List.append_nil, tokensOfMember]
    change ((value (.object ms.reverse m.1 :: outer)).run m.2.tokens).run _ = _
    rw [h.2]
    change deliver (.object (m :: ms.reverse).reverse none) outer = _
    rw [List.reverse_cons, List.reverse_reverse]

/-- Where a value should stand, the tokens of a tree without faults are read as the tree. -/
theorem run_tokens {t : Tree} (h : t.firstFault = none) (outer : List Frame) :
    (value outer).run t.tokens = deliver t outer := by
  induction t using Tree.induction generalizing outer with
  | whole t ih =>
      cases t with
      | list items stop =>
          obtain ⟨hparts, rfl⟩ := Tree.firstFault_list.mp h
          exact run_list (fun t ht => ih t ht (hparts t ht)) outer
      | object members stop =>
          obtain ⟨hparts, rfl⟩ := Tree.firstFault_object.mp h
          exact run_object (fun m hm => ih m.2 (List.mem_map_of_mem hm) (hparts m hm).2) outer
      | null | bool b | number n | text q | cutNumber | broken f => rfl

/-! ## What has been read at a place -/

/-- The tokens of a container that is being read, up to the place in it. -/
def writtenInFrame : Frame → List Token
  | .list items => .openList :: (items.reverse.map Tree.tokens).flatMap (· ++ [.comma])
  | .object members key =>
    .openObject :: (members.reverse.map tokensOfMember).flatMap (· ++ [.comma]) ++ [.text key, .colon]

def writtenIn (outer : List Frame) : List Token :=
  outer.reverse.flatMap writtenInFrame

/-- The tokens that have been read at a place, unless more than a value or a fault has been. -/
def written : Place → List Token
  | .value outer => writtenIn outer
  | .firstItem outer => writtenIn outer ++ [.openList]
  | .afterItem items outer =>
    writtenIn outer ++ .openList :: [.comma].intercalate (items.reverse.map Tree.tokens)
  | .firstKey outer => writtenIn outer ++ [.openObject]
  | .nextKey members outer =>
    writtenIn outer ++ .openObject :: (members.reverse.map tokensOfMember).flatMap (· ++ [.comma])
  | .colon members key outer =>
    writtenIn outer ++ .openObject :: (members.reverse.map tokensOfMember).flatMap (· ++ [.comma]) ++
      [.text key]
  | .afterMember members outer =>
    writtenIn outer ++ .openObject :: [.comma].intercalate (members.reverse.map tokensOfMember)
  | .finished t => t.tokens
  | .surplus _ | .halted _ => []

/-- A place where a value may still be read, or has been read whole. -/
def IsOpen : Place → Prop
  | .surplus _ | .halted _ => False
  | _ => True

/-- A place that reading can come to: something stands in front of a comma, and a halt has its
fault. -/
def Proper : Place → Prop
  | .afterItem items _ => items ≠ []
  | .afterMember members _ => members ≠ []
  | .halted t => t.firstFault ≠ none
  | _ => True

theorem proper_deliver (t : Tree) (outer : List Frame) : (deliver t outer).Proper := by
  cases outer with
  | nil => trivial
  | cons frame outer => cases frame <;> simp [deliver, Proper]

theorem firstFault_abandon {t : Tree} (h : t.firstFault ≠ none) (outer : List Frame) :
    (abandon t outer).firstFault ≠ none := by
  induction outer generalizing t with
  | nil => exact h
  | cons frame outer ih =>
      cases frame with
      | list items => exact ih (by simp [Tree.firstFault_list])
      | object members key => exact ih (by simp [Tree.firstFault_object])

theorem proper_startValue (outer : List Frame) (tok : Token) : (startValue outer tok).Proper := by
  cases tok with
  | openList | openObject => trivial
  | null | bool b | number n | text q | cutNumber | broken f => exact proper_deliver _ _
  | closeList | closeObject | comma | colon => exact firstFault_abandon (by simp [Tree.firstFault]) outer

theorem proper_advance {p : Place} (h : p.Proper) (tok : Token) : (advance p tok).Proper := by
  fun_cases advance p tok with
  | case1 | case3 => exact proper_startValue _ _
  | case2 | case5 | case7 | case15 => exact proper_deliver _ _
  | case6 | case9 | case11 | case13 | case16 => exact firstFault_abandon (by simp [Tree.firstFault]) _
  | case19 => exact h
  | _ => trivial

theorem writtenIn_cons (frame : Frame) (outer : List Frame) :
    writtenIn (frame :: outer) = writtenIn outer ++ writtenInFrame frame := by
  simp [writtenIn]

theorem written_deliver (t : Tree) (outer : List Frame) :
    (deliver t outer).written = writtenIn outer ++ t.tokens := by
  cases outer with
  | nil => rfl
  | cons frame outer =>
      rw [writtenIn_cons]
      cases frame <;>
        simp [deliver, written, writtenInFrame, intercalate_concat, tokensOfMember]

theorem written_startValue {outer : List Frame} {tok : Token} (h : (startValue outer tok).IsOpen) :
    (startValue outer tok).written = writtenIn outer ++ [tok] := by
  cases tok with
  | openList | openObject => rfl
  | null | bool b | number n | text q | cutNumber | broken f => exact written_deliver _ _
  | closeList | closeObject | comma | colon => cases h

/-- A token that is read is written behind the ones before it. -/
theorem written_advance {p : Place} (hp : p.Proper) (tok : Token) :
    (advance p tok).IsOpen → (advance p tok).written = p.written ++ [tok] := by
  fun_cases advance p tok with
  | case1 outer => exact written_startValue
  | case3 outer =>
      intro h
      rw [written_startValue h, writtenIn_cons]
      rfl
  | case4 items outer =>
      -- a comma stands behind something, so all parts in front of it have one
      intro _
      have hne : items.reverse.map Tree.tokens ≠ [] := by simpa [Proper] using hp
      simp only [written, writtenIn_cons, writtenInFrame, ← intercalate_append_sep _ hne]
      simp
  | case14 members outer =>
      intro _
      have hne : members.reverse.map tokensOfMember ≠ [] := by simpa [Proper] using hp
      simp only [written, ← intercalate_append_sep _ hne]
      simp
  | case12 members key outer =>
      intro _
      simp [written, writtenIn_cons, writtenInFrame]
  | case2 | case5 | case7 | case15 =>
      intro _
      rw [written_deliver]
      simp [written, Tree.tokens]
  | case8 | case10 =>
      intro _
      simp [written]
  | _ => exact False.elim

theorem isOpen_of_advance {p : Place} {tok : Token} (h : (advance p tok).IsOpen) : p.IsOpen := by
  cases p with
  | surplus t | halted t => exact h
  | _ => trivial

theorem proper_run {p : Place} (h : p.Proper) (ts : List Token) : (p.run ts).Proper := by
  induction ts generalizing p with
  | nil => exact h
  | cons tok ts ih => exact ih (proper_advance h tok)

/-- At a place where reading has not gone wrong, all that was read is written. -/
theorem written_run (ts : List Token) (h : ((value []).run ts).IsOpen) :
    ((value []).run ts).written = ts := by
  induction ts using List.reverseRecOn with
  | nil => rfl
  | append_singleton ts tok ih =>
      rw [run_append] at h ⊢
      have hproper : ((value []).run ts).Proper := proper_run (p := value []) trivial ts
      change (advance _ tok).written = _
      rw [written_advance hproper tok h, ih (isOpen_of_advance h)]

/-- A text that ends at a place without a surplus or a fault ends behind a whole value. -/
theorem eq_finished {p : Place} (hproper : p.Proper) (hsurplus : p.isSurplus = false)
    (h : p.tree.firstFault = none) : p = .finished p.tree := by
  cases p with
  | finished t => rfl
  | surplus t => cases hsurplus
  | halted t => exact absurd h hproper
  | _ => exact absurd h (firstFault_abandon (by simp [Tree.firstFault]) _)

end Place

namespace Document

theorem ofTokens_tokens {t : Tree} (h : t.firstFault = none) : ofTokens t.tokens = ⟨t, false⟩ := by
  rw [ofTokens, Place.run_tokens h]
  rfl

theorem eq_tokens {ts : List Token} (hsurplus : (ofTokens ts).surplus = false)
    (h : (ofTokens ts).tree.firstFault = none) : ts = (ofTokens ts).tree.tokens := by
  have hproper : ((Place.value []).run ts).Proper := Place.proper_run (p := .value []) trivial ts
  have hfinished := Place.eq_finished hproper hsurplus h
  have hwritten := Place.written_run ts (by rw [hfinished]; trivial)
  rw [hfinished] at hwritten
  exact hwritten.symm

variable {α : Type} {read : Tree → Except Fault α}

/-- A text has a meaning if and only if its tokens are those of a tree that has one, where no tree with
a fault has. -/
theorem interpret_eq_ok (hread : ∀ t a, read t = .ok a → t.firstFault = none) {s : String} {a : α} :
    (ofText s).interpret read = .ok a ↔
      ∃ t, Token.ofChars s.toList = t.tokens ∧ read t = .ok a := by
  constructor
  · intro h
    obtain ⟨b, hb, h⟩ := bind_eq_ok.mp h
    split at h
    · cases h
    · rename_i hsurplus
      cases h
      exact ⟨_, eq_tokens (Bool.eq_false_iff.mpr hsurplus) (hread _ _ hb), hb⟩
  · rintro ⟨t, htokens, ht⟩
    have hdocument : ofText s = ⟨t, false⟩ := by
      rw [ofText, htokens, ofTokens_tokens (hread t a ht)]
    rw [hdocument]
    exact bind_eq_ok.mpr ⟨a, ht, rfl⟩

end Document

end Tether.Json
