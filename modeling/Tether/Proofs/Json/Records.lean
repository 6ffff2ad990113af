import Tether.Json.Record
import Tether.Proofs.Json.Grammar

/-! # Texts of records

A record is written as an object of its fields or as the list of them. In an object the order of the
members does not matter, nor do members with other names; a field may be left out where it holds the
default, and no field may be given twice. -/

namespace Tether.Json

/-! ## Members -/

/-- An object that lists members by their names, each in any spelling, and the texts of their
values. -/
def ListsMembers (members : List (String × List Char)) (cs : List Char) : Prop :=
  ∃ texts, List.Forall₂ (fun m text => ∃ key, SpellsString m.1 key ∧ text = key ++ ':' :: m.2)
    members texts ∧ Encloses '{' '}' texts cs

/-- The texts of the values that members of one name have, in order. -/
def valuesOf (name : String) (members : List (String × List Char)) : List (List Char) :=
  (members.filter fun m => m.1 = name).map Prod.snd

section

variable {name other : String} {text : List Char} {members : List (String × List Char)}

theorem valuesOf_cons_self :
    valuesOf name ((name, text) :: members) = text :: valuesOf name members := by
  simp [valuesOf]

theorem valuesOf_cons_of_ne (h : other ≠ name) :
    valuesOf name ((other, text) :: members) = valuesOf name members := by
  simp [valuesOf, h]

theorem mem_valuesOf : text ∈ valuesOf name members ↔ (name, text) ∈ members := by
  simp [valuesOf]

theorem eq_nil_of_valuesOf_cons {m : String × List Char} (h : valuesOf name (m :: members) = []) :
    valuesOf name members = [] := by
  simp only [valuesOf, List.map_eq_nil_iff, List.filter_eq_nil_iff] at h ⊢
  exact fun other hother => h other (List.mem_cons_of_mem m hother)

end

/-! ## Records -/

/-- A field of a record as it is written. -/
structure FieldText (ρ : Type) where
  name : String
  /-- The field holds the same in two records. -/
  Same : ρ → ρ → Prop
  /-- A text of what the field holds in a record. -/
  Spells : ρ → List Char → Prop

/-- A field by what it holds and the texts of that. -/
def FieldText.of {ρ α : Type} (name : String) (held : ρ → α) (spells : α → List Char → Prop) :
    FieldText ρ :=
  ⟨name, fun r s => held r = held s, fun r => spells (held r)⟩

variable {ρ : Type}

/-- Members give a field once, by a text of what it holds, or leave it out where it holds the
default. -/
inductive FieldText.GivenIn (defaults r : ρ) (members : List (String × List Char))
    (f : FieldText ρ) : Prop
  | once {text : List Char} (h : valuesOf f.name members = [text]) (hspells : f.Spells r text) :
      GivenIn defaults r members f
  | leftOut (h : valuesOf f.name members = []) (hdefault : f.Same defaults r) :
      GivenIn defaults r members f

/-- The texts of a record: objects with strange members anywhere, and lists of the first fields, where
the fields after them hold the defaults. -/
inductive SpellsRecord (fields : List (FieldText ρ)) (defaults r : ρ) (cs : List Char) : Prop
  | object {members : List (String × List Char)} (h : ListsMembers members cs)
      (hgiven : ∀ f ∈ fields, f.GivenIn defaults r members)
      (hstrange : ∀ m ∈ members, m.1 ∉ fields.map FieldText.name → ValueText m.2) :
      SpellsRecord fields defaults r cs
  | list {given left : List (FieldText ρ)} {texts : List (List Char)}
      (hfields : fields = given ++ left)
      (hgiven : List.Forall₂ (fun f text => f.Spells r text) given texts)
      (hleft : ∀ f ∈ left, f.Same defaults r) (h : Encloses '[' ']' texts cs) :
      SpellsRecord fields defaults r cs

/-- An object that gives one of these fields more than once, whatever the values. -/
def RepeatsField (names : List String) (cs : List Char) : Prop :=
  ∃ members, ListsMembers members cs ∧ (∀ m ∈ members, ValueText m.2) ∧
    ∃ name ∈ names, 1 < (valuesOf name members).length

/-! ## Trees of members -/

/-- The tree of a member has the name of the member and the tree of its value. -/
def IsMember (m : String × List Char) (member : Quoted × Tree) : Prop :=
  member.1.text = .ok m.1 ∧ Writes m.2 member.2

theorem exists_writes_members {members : List (String × List Char)} {cs : List Char}
    (h : ListsMembers members cs) (hvalues : ∀ m ∈ members, ∃ t, Writes m.2 t) :
    ∃ ms, Writes cs (.object ms none) ∧ List.Forall₂ IsMember members ms := by
  obtain ⟨texts, htexts, hcs⟩ := h
  have hmembers : List.Forall₂ (fun m text => ∃ member, WritesMember text member ∧ IsMember m member)
      members texts := by
    refine forall₂_mono ?_ htexts
    rintro m hm _ ⟨key, hkey, rfl⟩
    obtain ⟨q, hq, hname⟩ := exists_writes_string hkey
    obtain ⟨t, ht⟩ := hvalues m hm
    exact ⟨(q, t), writesMember_of_writes hq ht, hname, ht⟩
  obtain ⟨ms, hwrites, hms⟩ := exists_between hmembers
  exact ⟨ms, writes_object hwrites hcs, hms.flip⟩

/-! ## Reading fields -/

/-- How one field is read from its texts: it comes to hold what is written, and no other field of the
record changes. -/
structure FieldText.ReadBy (fields : List (FieldText ρ)) (f : FieldText ρ) (field : RecordField ρ) :
    Prop where
  name_eq : field.name = f.name
  read : ∀ {r : ρ} {cs : List Char}, f.Spells r cs → ∃ t, Writes cs t ∧ ∀ s, ∃ s',
    field.read t s = .ok s' ∧ f.Same s' r ∧
      ∀ g ∈ fields, g.name ≠ f.name → g.Same s r → g.Same s' r

/-- A field that is put into a record is read if what it holds is. -/
theorem FieldText.readBy_of {α : Type} {fields : List (FieldText ρ)} {name : String} {held : ρ → α}
    {spells : α → List Char → Prop} {read : Tree → Except Fault α} {put : ρ → α → ρ}
    (hread : ∀ a cs, spells a cs → ∃ t, Writes cs t ∧ read t = .ok a)
    (hput : ∀ s a, held (put s a) = a)
    (hkeep : ∀ g ∈ fields, g.name ≠ name → ∀ s r a, g.Same s r → g.Same (put s a) r) :
    FieldText.ReadBy fields (.of name held spells) ⟨name, fun t s => do return put s (← read t)⟩ where
  name_eq := rfl
  read := by
    intro r cs hcs
    obtain ⟨t, hwrites, ht⟩ := hread (held r) cs hcs
    refine ⟨t, hwrites, fun s => ⟨put s (held r), ?_, hput s (held r), ?_⟩⟩
    · exact bind_eq_ok.mpr ⟨held r, ht, rfl⟩
    · intro g hg hne hsame
      exact hkeep g hg hne s r (held r) hsame

/-- The fields that are read are those that are written, and make up the record. -/
structure ReadAsWritten (fields : List (FieldText ρ)) (readers : List (RecordField ρ)) : Prop where
  readBy : List.Forall₂ (FieldText.ReadBy fields) fields readers
  names : (fields.map FieldText.name).Nodup
  ext : ∀ r s : ρ, (∀ f ∈ fields, f.Same r s) → r = s

namespace ReadAsWritten

variable {fields : List (FieldText ρ)} {readers : List (RecordField ρ)}

theorem eq_of_name_eq (h : ReadAsWritten fields readers) {f g : FieldText ρ} (hf : f ∈ fields)
    (hg : g ∈ fields) (hname : f.name = g.name) : f = g :=
  List.inj_on_of_nodup_map h.names hf hg hname

theorem find?_strange (h : ReadAsWritten fields readers) {name : String}
    (hname : name ∉ fields.map FieldText.name) :
    (readers.find? fun field => field.name = name) = none := by
  rw [List.find?_eq_none]
  intro field hfield hsame
  obtain ⟨f, hf, hread⟩ := exists_of_mem_right h.readBy field hfield
  rw [hread.name_eq, decide_eq_true_eq] at hsame
  exact hname (List.mem_map.mpr ⟨f, hf, hsame⟩)

theorem find?_known (h : ReadAsWritten fields readers) {f : FieldText ρ} (hf : f ∈ fields) :
    ∃ field, (readers.find? fun field => field.name = f.name) = some field ∧
      f.ReadBy fields field := by
  obtain ⟨first, hfirst, hread⟩ := exists_of_mem_left h.readBy f hf
  cases hfind : readers.find? fun field => field.name = f.name with
  | none =>
      have hne := List.find?_eq_none.mp hfind first hfirst
      rw [hread.name_eq] at hne
      simp at hne
  | some field =>
      obtain ⟨g, hg, hreadg⟩ := exists_of_mem_right h.readBy field (List.mem_of_find?_eq_some hfind)
      have hname : field.name = f.name := by simpa using List.find?_some hfind
      have hgf : g = f := h.eq_of_name_eq hg hf (hreadg.name_eq.symm.trans hname)
      exact ⟨field, rfl, hgf ▸ hreadg⟩

end ReadAsWritten

namespace Tree

/-- A member is passed over if its name is strange, and otherwise read unless it was given before. -/
theorem readMembers_cons_eq_ok {readers : List (RecordField ρ)} {seen : List String} {key : Quoted}
    {t : Tree} {ms : List (Quoted × Tree)} {r r' : ρ} {name : String} (hkey : key.text = .ok name) :
    readMembers readers seen ((key, t) :: ms) r = .ok r' ↔
      ((readers.find? fun field => field.name = name) = none ∧ t.firstFault = none ∧
        readMembers readers seen ms r = .ok r') ∨
      ∃ field s, (readers.find? fun field => field.name = name) = some field ∧ name ∉ seen ∧
        field.read t r = .ok s ∧ readMembers readers (name :: seen) ms s = .ok r' := by
  rw [readMembers, hkey]
  simp only [bind_eq_ok, Except.ok.injEq, exists_eq_left']
  cases readers.find? fun field => field.name = name with
  | none =>
      cases t.firstFault with
      | none => simp
      | some f => simp
  | some field =>
      by_cases hseen : name ∈ seen
      · simp [hseen]
      · simp [hseen, bind_eq_ok]

end Tree

/-! ## Reading records -/

namespace FieldText.GivenIn

variable {f : FieldText ρ} {s s' r : ρ} {name : String} {text : List Char}
  {members : List (String × List Char)}

theorem spells (h : f.GivenIn s r members) (htext : text ∈ valuesOf f.name members) :
    f.Spells r text := by
  cases h with
  | once hvalues hspells =>
      rw [hvalues, List.mem_singleton] at htext
      exact htext ▸ hspells
  | leftOut hvalues =>
      rw [hvalues] at htext
      cases htext

theorem same (h : f.GivenIn s r members) (hvalues : valuesOf f.name members = []) : f.Same s r := by
  cases h with
  | once hvalue => simp [hvalues] at hvalue
  | leftOut _ hdefault => exact hdefault

/-- Behind a member that gives a field there is no other one. -/
theorem valuesOf_eq_nil (h : f.GivenIn s r ((f.name, text) :: members)) :
    valuesOf f.name members = [] := by
  cases h with
  | once hvalues =>
      rw [valuesOf_cons_self, List.cons.injEq] at hvalues
      exact hvalues.2
  | leftOut hvalues =>
      rw [valuesOf_cons_self] at hvalues
      cases hvalues

/-- A field that the first member does not give is given by the others. -/
theorem tail (h : f.GivenIn s r ((name, text) :: members)) (hne : name ≠ f.name)
    (hsame : f.Same s r → f.Same s' r) : f.GivenIn s' r members := by
  cases h with
  | once hvalues hspells =>
      rw [valuesOf_cons_of_ne hne] at hvalues
      exact .once hvalues hspells
  | leftOut hvalues hdefault =>
      rw [valuesOf_cons_of_ne hne] at hvalues
      exact .leftOut hvalues (hsame hdefault)

end FieldText.GivenIn

namespace ReadAsWritten

variable {fields : List (FieldText ρ)} {readers : List (RecordField ρ)}

/-- Members that give the fields of a record change any record into it, if what they leave out is
there already. -/
theorem readMembers_eq_ok (h : ReadAsWritten fields readers) {r s : ρ} {seen : List String}
    {members : List (String × List Char)} {ms : List (Quoted × Tree)}
    (hms : List.Forall₂ IsMember members ms) (hgiven : ∀ f ∈ fields, f.GivenIn s r members)
    (hseen : ∀ name ∈ seen, valuesOf name members = []) :
    Tree.readMembers readers seen ms s = .ok r := by
  induction hms generalizing seen s with
  | nil => rw [Tree.readMembers, h.ext s r fun f hf => (hgiven f hf).same rfl]
  | @cons m member members ms hm _ ih =>
      obtain ⟨name, text⟩ := m
      obtain ⟨key, t⟩ := member
      obtain ⟨hkey, hwrites⟩ : key.text = .ok name ∧ Writes text t := hm
      have hrest : ∀ other ∈ seen, valuesOf other members = [] :=
        fun other hother => eq_nil_of_valuesOf_cons (hseen other hother)
      rw [Tree.readMembers_cons_eq_ok hkey]
      by_cases hknown : name ∈ fields.map FieldText.name
      · obtain ⟨f, hf, rfl⟩ := List.mem_map.mp hknown
        obtain ⟨field, hfind, hread⟩ := h.find?_known hf
        have hspells : f.Spells r text := (hgiven f hf).spells (by simp [valuesOf_cons_self])
        obtain ⟨u, hu, hstep⟩ := hread.read hspells
        obtain ⟨s', hs', hsame, hkeep⟩ := hstep s
        have hfresh : f.name ∉ seen := by
          intro hmem
          have hvalues := hseen _ hmem
          rw [valuesOf_cons_self] at hvalues
          cases hvalues
        have hnone : valuesOf f.name members = [] := (hgiven f hf).valuesOf_eq_nil
        refine .inr ⟨field, s', hfind, hfresh, hwrites.unique hu ▸ hs', ih ?_ ?_⟩
        · intro g hg
          by_cases hname : f.name = g.name
          · cases h.eq_of_name_eq hf hg hname
            exact .leftOut hnone hsame
          · exact (hgiven g hg).tail hname (hkeep g hg (Ne.symm hname))
        · exact List.forall_mem_cons.mpr ⟨hnone, hrest⟩
      · refine .inl ⟨h.find?_strange hknown, hwrites.2, ih ?_ hrest⟩
        intro g hg
        have hname : name ≠ g.name := fun hname => hknown (List.mem_map.mpr ⟨g, hg, hname.symm⟩)
        exact (hgiven g hg).tail hname id

/-- The texts of the first fields of a record change any record into it, if what they leave out is
there already. -/
theorem exists_readItems (h : ReadAsWritten fields readers) {r : ρ} {given left : List (FieldText ρ)}
    {texts : List (List Char)} (hgiven : List.Forall₂ (fun f text => f.Spells r text) given texts)
    (hfields : given ⊆ fields) {rest : List (RecordField ρ)}
    (hrest : List.Forall₂ (FieldText.ReadBy fields) (given ++ left) rest) :
    ∃ items, List.Forall₂ Writes texts items ∧
      ∀ s, (∀ f ∈ fields, f ∉ given → f.Same s r) → Tree.readItems rest items s = .ok r := by
  induction hgiven generalizing rest with
  | nil =>
      refine ⟨[], .nil, fun s hleft => ?_⟩
      rw [Tree.readItems, h.ext s r fun f hf => hleft f hf List.not_mem_nil]
  | @cons f text given texts hspells _ ih =>
      obtain ⟨hf, hfields⟩ := List.cons_subset.mp hfields
      cases hrest with
      | cons hread hrest =>
          obtain ⟨t, ht, hstep⟩ := hread.read hspells
          obtain ⟨items, hitems, hrun⟩ := ih hfields hrest
          refine ⟨t :: items, .cons ht hitems, fun s hleft => ?_⟩
          obtain ⟨s', hs', hsame, hkeep⟩ := hstep s
          refine bind_eq_ok.mpr ⟨s', hs', hrun s' fun g hg hnot => ?_⟩
          by_cases hname : g.name = f.name
          · cases h.eq_of_name_eq hg hf hname
            exact hsame
          · have hother : g ∉ f :: given := by
              rw [List.mem_cons, not_or]
              exact ⟨fun hgf => hname (congrArg FieldText.name hgf), hnot⟩
            exact hkeep g hg hname (hleft g hg hother)

/-- Every text of a record writes a tree that is read as the record. -/
theorem exists_readRecord (h : ReadAsWritten fields readers) {defaults r : ρ} {cs : List Char}
    (hcs : SpellsRecord fields defaults r cs) :
    ∃ t, Writes cs t ∧ t.readRecord readers defaults = .ok r := by
  cases hcs with
  | @object members hlists hgiven hstrange =>
      have hvalues : ∀ m ∈ members, ∃ t, Writes m.2 t := by
        intro m hm
        by_cases hknown : m.1 ∈ fields.map FieldText.name
        · obtain ⟨f, hf, hname⟩ := List.mem_map.mp hknown
          have htext : m.2 ∈ valuesOf f.name members := by
            rw [hname]
            exact mem_valuesOf.mpr hm
          obtain ⟨field, -, hread⟩ := h.find?_known hf
          obtain ⟨t, ht, -⟩ := hread.read ((hgiven f hf).spells htext)
          exact ⟨t, ht⟩
        · exact exists_writes_of_valueText (hstrange m hm hknown)
      obtain ⟨ms, hwrites, hms⟩ := exists_writes_members hlists hvalues
      have hread : Tree.readMembers readers [] ms defaults = .ok r :=
        h.readMembers_eq_ok hms hgiven (List.forall_mem_nil _)
      exact ⟨.object ms none, hwrites, bind_eq_ok.mpr ⟨r, hread, rfl⟩⟩
  | @list given left texts hfields hgiven hleft hencloses =>
      have hsub : given ⊆ fields := by
        rw [hfields]
        exact List.subset_append_left given left
      have hreadBy : List.Forall₂ (FieldText.ReadBy fields) (given ++ left) readers := by
        rw [← hfields]
        exact h.readBy
      obtain ⟨items, hitems, hrun⟩ := h.exists_readItems hgiven hsub hreadBy
      have hread : Tree.readItems readers items defaults = .ok r := by
        refine hrun defaults fun f hf hnot => hleft f ?_
        rw [hfields, List.mem_append] at hf
        exact hf.resolve_left hnot
      exact ⟨.list items none, writes_list hitems hencloses, bind_eq_ok.mpr ⟨r, hread, rfl⟩⟩

end ReadAsWritten

/-! ## Repeated fields -/

namespace Tree

variable {readers : List (RecordField ρ)} {seen : List String} {members : List (String × List Char)}
  {ms : List (Quoted × Tree)} {r s : ρ} {name : String}

/-- Of a field that is read, no second value is given. -/
theorem length_valuesOf_of_readMembers (hms : List.Forall₂ IsMember members ms)
    (h : readMembers readers seen ms s = .ok r) (hname : name ∈ readers.map RecordField.name) :
    (name ∈ seen → valuesOf name members = []) ∧ (valuesOf name members).length ≤ 1 := by
  induction hms generalizing seen s with
  | nil => exact ⟨fun _ => rfl, Nat.zero_le 1⟩
  | @cons m member members ms hm _ ih =>
      rw [readMembers_cons_eq_ok hm.1] at h
      rcases h with ⟨hstrange, -, hrest⟩ | ⟨field, s', -, hfresh, -, hrest⟩
      · have hne : m.1 ≠ name := by
          rintro rfl
          obtain ⟨field, hfield, hsame⟩ := List.mem_map.mp hname
          exact List.find?_eq_none.mp hstrange field hfield (decide_eq_true hsame)
        rw [valuesOf_cons_of_ne hne]
        exact ih hrest
      · obtain ⟨hnil, hlength⟩ := ih hrest
        by_cases heq : m.1 = name
        · subst heq
          refine ⟨fun hmem => absurd hmem hfresh, ?_⟩
          rw [valuesOf_cons_self, hnil List.mem_cons_self]
          exact Nat.le_refl 1
        · rw [valuesOf_cons_of_ne heq]
          exact ⟨fun hmem => hnil (List.mem_cons_of_mem _ hmem), hlength⟩

/-- The value of every member whose name is known is read. -/
theorem exists_read_of_readMembers (hms : List.Forall₂ IsMember members ms)
    (h : readMembers readers seen ms s = .ok r) {text : List Char} (hm : (name, text) ∈ members)
    {field : RecordField ρ} (hfield : (readers.find? fun field => field.name = name) = some field) :
    ∃ t, Writes text t ∧ ∃ r₁ r₂, field.read t r₁ = .ok r₂ := by
  induction hms generalizing seen s with
  | nil => cases hm
  | @cons m member members ms hmember _ ih =>
      rw [readMembers_cons_eq_ok hmember.1] at h
      rcases List.mem_cons.mp hm with rfl | hm
      · rcases h with ⟨hstrange, -, -⟩ | ⟨field', s', hfind, -, hread, -⟩
        · rw [hstrange] at hfield
          cases hfield
        · rw [hfind, Option.some.injEq] at hfield
          exact ⟨member.2, hmember.2, s, s', hfield ▸ hread⟩
      · rcases h with ⟨-, -, hrest⟩ | ⟨_, _, -, -, -, hrest⟩
        · exact ih hrest hm
        · exact ih hrest hm

end Tree

/-- An object with well-formed values is read, if at all, through its members. -/
theorem readMembers_of_readRecord {readers : List (RecordField ρ)} {defaults r : ρ}
    {members : List (String × List Char)} {cs : List Char} {t : Tree} (h : ListsMembers members cs)
    (hvalues : ∀ m ∈ members, ValueText m.2) (ht : Writes cs t)
    (hread : t.readRecord readers defaults = .ok r) :
    ∃ ms, List.Forall₂ IsMember members ms ∧ Tree.readMembers readers [] ms defaults = .ok r := by
  obtain ⟨ms, hwrites, hms⟩ :=
    exists_writes_members h fun m hm => exists_writes_of_valueText (hvalues m hm)
  rw [ht.unique hwrites] at hread
  obtain ⟨r', hr', hend⟩ := bind_eq_ok.mp hread
  cases hend
  exact ⟨ms, hms, hr'⟩

theorem RepeatsField.exists_writes {names : List String} {cs : List Char} (h : RepeatsField names cs) :
    ∃ t, Writes cs t := by
  obtain ⟨members, hlists, hvalues, -⟩ := h
  obtain ⟨ms, hwrites, -⟩ :=
    exists_writes_members hlists fun m hm => exists_writes_of_valueText (hvalues m hm)
  exact ⟨.object ms none, hwrites⟩

/-- An object that gives a field more than once is not read as a record. -/
theorem RepeatsField.readRecord_ne_ok {names : List String} {cs : List Char} {t : Tree}
    (h : RepeatsField names cs) (ht : Writes cs t) {readers : List (RecordField ρ)}
    (hnames : names ⊆ readers.map RecordField.name) (defaults r : ρ) :
    t.readRecord readers defaults ≠ .ok r := by
  intro hread
  obtain ⟨members, hlists, hvalues, name, hname, hlength⟩ := h
  obtain ⟨ms, hms, hread⟩ := readMembers_of_readRecord hlists hvalues ht hread
  have hmost := (Tree.length_valuesOf_of_readMembers hms hread (hnames hname)).2
  omega

end Tether.Json
