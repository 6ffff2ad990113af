import Tether.Proofs.Json.Values

/-! # Texts that write a tree

A text writes a tree if its tokens are those of the tree. Blanks around it do not matter, and the
texts of values are joined to the texts of containers. -/

namespace Tether.Json

/-! ## Blanks -/

def blanks : List Char := [' ', '\t', '\n', '\r']

/-- `cs` is `core` with blanks before and after it. -/
def Padded (core cs : List Char) : Prop :=
  ∃ before after, (∀ c ∈ before, c ∈ blanks) ∧ (∀ c ∈ after, c ∈ blanks) ∧
    cs = before ++ core ++ after

/-- `cs` holds texts separated by commas between two marks, with blanks at both ends inside and
outside. -/
def Encloses (first last : Char) (texts : List (List Char)) (cs : List Char) : Prop :=
  ∃ body, Padded ([','].intercalate texts) body ∧ Padded (first :: (body ++ [last])) cs

theorem padded_self (core : List Char) : Padded core core :=
  ⟨[], [], List.forall_mem_nil _, List.forall_mem_nil _, by simp⟩

namespace Token

theorem isBlank_of_mem {c : Char} (h : c ∈ blanks) : isBlank c :=
  have hall : blanks.all isBlank := rfl
  List.all_eq_true.mp hall c h

theorem ofChars_blanks {before : List Char} (h : ∀ c ∈ before, c ∈ blanks) (cs : List Char) :
    ofChars (before ++ cs) = ofChars cs := by
  induction before with
  | nil => rfl
  | cons c before ih =>
      obtain ⟨hc, hbefore⟩ := List.forall_mem_cons.mp h
      rw [List.cons_append, ofChars_blank (isBlank_of_mem hc), ih hbefore]

theorem numberEnds_blanks {after : List Char} (h : ∀ c ∈ after, c ∈ blanks) : NumberEnds after := by
  cases after with
  | nil => exact numberEnds_nil
  | cons c after =>
      have hall : blanks.all fun c => !c.isDigit && c != '.' && c != 'e' && c != 'E' := rfl
      have hc := List.all_eq_true.mp hall c (h c List.mem_cons_self)
      simpa [numberEnds_cons, and_assoc] using hc

/-- Blanks around a text change none of its tokens. -/
theorem ofChars_padded {core cs : List Char} (h : Padded core cs)
    (hcore : ∀ t ∈ ofChars core, t.isWhole) : ofChars cs = ofChars core := by
  obtain ⟨before, after, hbefore, hafter, rfl⟩ := h
  have hend : ofChars after = [] := by
    rw [← List.append_nil after, ofChars_blanks hafter, ofChars_nil]
  rw [List.append_assoc, ofChars_blanks hbefore, ofChars_append (numberEnds_blanks hafter) hcore,
    hend, List.append_nil]

/-! ## Marks -/

/-- The characters that are tokens by themselves. -/
def marks : List (Char × Token) :=
  [('[', .openList), (']', .closeList), ('{', .openObject), ('}', .closeObject), (',', .comma),
    (':', .colon)]

theorem ofChars_mark {c : Char} {mark : Token} (h : (c, mark) ∈ marks) (cs : List Char) :
    ofChars (c :: cs) = mark :: ofChars cs := by
  have hblank : ∀ m ∈ marks, isBlank m.1 = false := by decide
  have hnext : ∀ m ∈ marks, next m.1 cs = (m.2, cs) := by simp [marks, next]
  rw [ofChars_next (hblank _ h), hnext _ h]

theorem numberEnds_mark {c : Char} {mark : Token} (h : (c, mark) ∈ marks) (cs : List Char) :
    NumberEnds (c :: cs) := by
  have hmarks : ∀ m ∈ marks,
      m.1.isDigit = false ∧ m.1 ≠ '.' ∧ m.1 ≠ 'e' ∧ m.1 ≠ 'E' := by decide
  exact numberEnds_cons.mpr (hmarks _ h)

/-- A mark between two texts stands between their tokens. -/
theorem ofChars_append_mark {c : Char} {mark : Token} (h : (c, mark) ∈ marks) {cs : List Char}
    (hcs : ∀ t ∈ ofChars cs, t.isWhole) (rest : List Char) :
    ofChars (cs ++ c :: rest) = ofChars cs ++ mark :: ofChars rest := by
  rw [ofChars_append (numberEnds_mark h rest) hcs, ofChars_mark h]

/-- Texts separated by commas have their tokens separated by commas. -/
theorem ofChars_intercalate {texts : List (List Char)}
    (h : ∀ cs ∈ texts, ∀ t ∈ ofChars cs, t.isWhole) :
    ofChars ([','].intercalate texts) = [comma].intercalate (texts.map ofChars) := by
  induction texts with
  | nil => simp
  | cons cs texts ih =>
      obtain ⟨hcs, htexts⟩ := List.forall_mem_cons.mp h
      cases texts with
      | nil => simp
      | cons ds texts =>
          have hcomma : (',', comma) ∈ marks := by decide
          rw [List.intercalate_cons_cons, List.append_assoc, List.singleton_append,
            ofChars_append_mark hcomma hcs, ih htexts]
          simp [List.intercalate_cons_cons]

/-- Between two marks, texts separated by commas have the tokens of a container. -/
theorem ofChars_container {α : Type} {R : List Char → α → Prop} {f : α → List Token} {c d : Char}
    {first last : Token} (hc : (c, first) ∈ marks) (hd : (d, last) ∈ marks)
    (hR : ∀ cs x, R cs x → ofChars cs = f x ∧ ∀ t ∈ ofChars cs, t.isWhole)
    {texts : List (List Char)} {xs : List α} (h : List.Forall₂ R texts xs) {body : List Char}
    (hbody : Padded ([','].intercalate texts) body) :
    ofChars (c :: (body ++ [d])) = first :: ([comma].intercalate (xs.map f) ++ [last]) := by
  have hwhole : ∀ cs ∈ texts, ∀ t ∈ ofChars cs, t.isWhole := by
    intro cs hcs
    obtain ⟨x, -, hx⟩ := exists_of_mem_left h cs hcs
    exact (hR cs x hx).2
  have hinside : ofChars ([','].intercalate texts) = [comma].intercalate (xs.map f) := by
    rw [ofChars_intercalate hwhole, map_eq_map (fun cs x hx => (hR cs x hx).1) h]
  have hcore : ∀ t ∈ ofChars ([','].intercalate texts), t.isWhole := by
    rw [ofChars_intercalate hwhole]
    exact Tree.forall_mem_intercalate (P := fun t => t.isWhole) rfl (List.forall_mem_map.mpr hwhole)
  have hpadded := ofChars_padded hbody hcore
  rw [ofChars_mark hc, ofChars_append_mark hd (hpadded ▸ hcore), hpadded, hinside, ofChars_nil]

end Token

/-! ## Values and members -/

/-- `cs` has the tokens of a tree without faults. -/
def Writes (cs : List Char) (t : Tree) : Prop :=
  Token.ofChars cs = t.tokens ∧ t.firstFault = none

/-- `cs` has the tokens of a member without faults. -/
def WritesMember (cs : List Char) (m : Quoted × Tree) : Prop :=
  Token.ofChars cs = Tree.tokensOfMember m ∧ m.1.fault = none ∧ m.2.firstFault = none

section

variable {cs : List Char} {t : Tree}

theorem Writes.isWhole (h : Writes cs t) : ∀ tok ∈ Token.ofChars cs, tok.isWhole :=
  h.1 ▸ Tree.isWhole_of_mem_tokens h.2

theorem Writes.padded (h : Writes cs t) {padded : List Char} (hpadded : Padded cs padded) :
    Writes padded t :=
  ⟨(Token.ofChars_padded hpadded h.isWhole).trans h.1, h.2⟩

theorem Writes.ofText_eq {s : String} (h : Writes s.toList t) : Document.ofText s = ⟨t, false⟩ := by
  rw [Document.ofText, h.1, Document.ofTokens_tokens h.2]

theorem Writes.unique {u : Tree} (ht : Writes cs t) (hu : Writes cs u) : t = u := by
  have hdocument : Document.mk t false = Document.mk u false := by
    rw [← Document.ofTokens_tokens ht.2, ← Document.ofTokens_tokens hu.2, ← ht.1, hu.1]
  exact (Document.mk.inj hdocument).1

/-- A text that writes a tree has the meaning of the tree. -/
theorem Writes.interpret_eq {s : String} (h : Writes s.toList t) {α : Type}
    (read : Tree → Except Fault α) : (Document.ofText s).interpret read = read t := by
  rw [h.ofText_eq, Document.interpret]
  cases read t with
  | error f => rfl
  | ok a => rfl

/-- A text with a value writes its own tree, and the value is that of the tree. -/
theorem writes_of_value? {s : String} {v : Value} (h : value? s = .ok v) :
    Writes s.toList (Document.ofText s).tree ∧ (Document.ofText s).tree.toValue maxDepth = .ok v := by
  obtain ⟨t, htokens, ht⟩ := value?_eq_ok.mp h
  have hwrites : Writes s.toList t := ⟨htokens, Tree.firstFault_of_toValue ht⟩
  rw [hwrites.ofText_eq]
  exact ⟨hwrites, ht⟩

/-- A key and a value with a colon between them are a member. -/
theorem writesMember_of_writes {key value : List Char} {q : Quoted} (hkey : Writes key (.text q))
    (hvalue : Writes value t) : WritesMember (key ++ ':' :: value) (q, t) := by
  have hcolon : (':', Token.colon) ∈ Token.marks := by decide
  refine ⟨?_, hkey.2, hvalue.2⟩
  rw [Token.ofChars_append_mark hcolon hkey.isWhole, hkey.1, hvalue.1]
  rfl

theorem WritesMember.isWhole {m : Quoted × Tree} (h : WritesMember cs m) :
    ∀ tok ∈ Token.ofChars cs, tok.isWhole := by
  rw [h.1, Tree.tokensOfMember, List.forall_mem_cons, List.forall_mem_cons]
  refine ⟨?_, rfl, Tree.isWhole_of_mem_tokens h.2.2⟩
  simp [Token.isWhole, h.2.1]

end

/-! ## Containers -/

section

variable {texts : List (List Char)} {cs : List Char}

theorem writes_list {items : List Tree} (h : List.Forall₂ Writes texts items)
    (hcs : Encloses '[' ']' texts cs) : Writes cs (.list items none) := by
  obtain ⟨body, hbody, hcs⟩ := hcs
  have hopen : ('[', Token.openList) ∈ Token.marks := by decide
  have hclose : (']', Token.closeList) ∈ Token.marks := by decide
  refine Writes.padded ⟨?_, Tree.firstFault_list.mpr ⟨?_, rfl⟩⟩ hcs
  · rw [Tree.tokens, Tree.tokensOfItems_eq]
    exact Token.ofChars_container hopen hclose (fun _ _ ht => ⟨ht.1, ht.isWhole⟩) h hbody
  · intro t ht
    obtain ⟨cs, -, hcs⟩ := exists_of_mem_right h t ht
    exact hcs.2

theorem writes_object {members : List (Quoted × Tree)} (h : List.Forall₂ WritesMember texts members)
    (hcs : Encloses '{' '}' texts cs) : Writes cs (.object members none) := by
  obtain ⟨body, hbody, hcs⟩ := hcs
  have hopen : ('{', Token.openObject) ∈ Token.marks := by decide
  have hclose : ('}', Token.closeObject) ∈ Token.marks := by decide
  refine Writes.padded ⟨?_, Tree.firstFault_object.mpr ⟨?_, rfl⟩⟩ hcs
  · rw [Tree.tokens, Tree.tokensOfMembers_eq]
    exact Token.ofChars_container hopen hclose (fun _ _ hm => ⟨hm.1, hm.isWhole⟩) h hbody
  · intro m hm
    obtain ⟨cs, -, hcs⟩ := exists_of_mem_right h m hm
    exact hcs.2

end

end Tether.Json
