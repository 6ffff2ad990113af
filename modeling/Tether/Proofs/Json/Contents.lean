import Mathlib.Data.List.Forall2
import Tether.Proofs.Json.Fields
import Tether.Proofs.Json.Parsing

/-! # Contents of trees

A tree says something if it has no fault, its containers are not nested too deep, and all its numbers
and texts can be converted. The room for containers is of no other account. -/

namespace Tether.Json

/-! ## Lists that are related item by item -/

section

variable {α β : Type} {R S : α → β → Prop} {xs : List α} {ys : List β}

theorem exists_of_mem_left (h : List.Forall₂ R xs ys) : ∀ x ∈ xs, ∃ y ∈ ys, R x y := by
  induction h with
  | nil => exact List.forall_mem_nil _
  | cons hxy _ ih =>
      refine List.forall_mem_cons.mpr ⟨⟨_, List.mem_cons_self, hxy⟩, ?_⟩
      intro x hx
      obtain ⟨y, hy, hR⟩ := ih x hx
      exact ⟨y, List.mem_cons_of_mem _ hy, hR⟩

theorem exists_of_mem_right (h : List.Forall₂ R xs ys) : ∀ y ∈ ys, ∃ x ∈ xs, R x y :=
  exists_of_mem_left h.flip

theorem exists_forall₂ (h : ∀ x ∈ xs, ∃ y, R x y) : ∃ ys, List.Forall₂ R xs ys := by
  induction xs with
  | nil => exact ⟨[], .nil⟩
  | cons x xs ih =>
      obtain ⟨⟨y, hy⟩, hxs⟩ := List.forall_mem_cons.mp h
      obtain ⟨ys, hys⟩ := ih hxs
      exact ⟨y :: ys, .cons hy hys⟩

theorem map_eq_map {γ : Type} {f : α → γ} {g : β → γ} (hR : ∀ x y, R x y → f x = g y)
    (h : List.Forall₂ R xs ys) : xs.map f = ys.map g := by
  rw [← List.forall₂_eq_eq_eq, List.forall₂_map_left_iff, List.forall₂_map_right_iff]
  exact h.imp hR

/-- A choice for each pair is a list related to both sides. -/
theorem exists_between {γ : Type} {S : β → γ → Prop} {T : γ → α → Prop}
    (h : List.Forall₂ (fun x y => ∃ z, S y z ∧ T z x) xs ys) :
    ∃ zs, List.Forall₂ S ys zs ∧ List.Forall₂ T zs xs := by
  induction h with
  | nil => exact ⟨[], .nil, .nil⟩
  | cons hz _ ih =>
      obtain ⟨z, hS, hT⟩ := hz
      obtain ⟨zs, hSs, hTs⟩ := ih
      exact ⟨z :: zs, .cons hS hSs, .cons hT hTs⟩

theorem forall₂_mono (hRS : ∀ x ∈ xs, ∀ y, R x y → S x y) (h : List.Forall₂ R xs ys) :
    List.Forall₂ S xs ys :=
  ((List.forall₂_and_left xs ys).mpr ⟨hRS, h⟩).imp fun _ y hxy => hxy.1 y hxy.2

end

theorem mapM_eq_ok {ε α β : Type} {f : α → Except ε β} {xs : List α} {ys : List β} :
    xs.mapM f = .ok ys ↔ List.Forall₂ (fun x y => f x = .ok y) xs ys := by
  induction xs generalizing ys with
  | nil =>
      rw [List.mapM_nil, List.forall₂_nil_left_iff]
      exact ⟨fun h => (Except.ok.inj h).symm, fun h => congrArg Except.ok h.symm⟩
  | cons x xs ih =>
      rw [List.mapM_cons, List.forall₂_cons_left_iff, bind_eq_ok]
      constructor
      · rintro ⟨y, hy, h⟩
        obtain ⟨ys, hys, h⟩ := bind_eq_ok.mp h
        exact ⟨y, ys, hy, ih.mp hys, (Except.ok.inj h).symm⟩
      · rintro ⟨y, ys, hy, hys, rfl⟩
        exact ⟨y, hy, bind_eq_ok.mpr ⟨ys, ih.mpr hys, rfl⟩⟩

/-! ## Nesting -/

section

variable {α : Type} (isContainer : α → Bool) (parts : α → List α)

/-- At most `depth` containers stand inside one another, where `parts` are what stands directly inside
one. -/
def NestedAtMost : Nat → α → Prop
  | 0, x => isContainer x = false
  | depth + 1, x => ∀ y ∈ parts x, NestedAtMost depth y

instance decidableNestedAtMost : (depth : Nat) → (x : α) →
    Decidable (NestedAtMost isContainer parts depth x)
  | 0, x => inferInstanceAs (Decidable (isContainer x = false))
  | depth + 1, x =>
    have (y : α) : Decidable (NestedAtMost isContainer parts depth y) :=
      decidableNestedAtMost depth y
    inferInstanceAs (Decidable (∀ y ∈ parts x, NestedAtMost isContainer parts depth y))

end

/-! ## Strings and ends of containers -/

theorem Quoted.fault_of_chars {fault : Option Fault} {pieces : List Piece} {cs : List Char}
    (h : chars fault pieces = .ok cs) : fault = none := by
  fun_induction chars fault pieces generalizing cs with
  | case1 f => cases h
  | case2 => assumption
  | case3 c pieces ih =>
      obtain ⟨_, hrest, -⟩ := bind_eq_ok.mp h
      exact ih hrest
  | case4 n _ m pieces _ ih =>
      obtain ⟨_, hrest, -⟩ := bind_eq_ok.mp h
      exact ih hrest
  | case9 n pieces _ _ ih =>
      obtain ⟨_, hrest, -⟩ := bind_eq_ok.mp h
      exact ih hrest
  | _ => cases h

/-- A text is spelled by pieces alone, with no fault behind them. -/
theorem Quoted.text_eq_ok {q : Quoted} {s : String} :
    q.text = .ok s ↔ chars q.fault q.pieces = .ok s.toList := by
  rw [text]
  cases chars q.fault q.pieces with
  | error f => exact ⟨nofun, nofun⟩
  | ok cs =>
      constructor
      · intro h
        rw [← Except.ok.inj h, String.toList_ofList]
      · intro h
        rw [Except.ok.inj h]
        exact congrArg Except.ok String.ofList_toList

/-- A string that was broken off spells no text. -/
theorem Quoted.fault_of_text {q : Quoted} {s : String} (h : q.text = .ok s) : q.fault = none :=
  fault_of_chars (text_eq_ok.mp h)

theorem checkStop_eq_ok {stop : Option Fault} {u : Unit} : checkStop stop = .ok u ↔ stop = none := by
  cases stop <;> simp [checkStop]

namespace Tree

/-! ## What says something -/

section

variable {room : Nat} {c : Content}

theorem toItems_eq_mapM (ts : List Tree) : toItems room ts = ts.mapM (toContent room) := by
  induction ts with
  | nil => rw [toItems, List.mapM_nil]
  | cons t ts ih => rw [toItems, List.mapM_cons, ih]

theorem toFields_eq_mapM (ms : List (Quoted × Tree)) :
    toFields room ms = ms.mapM fun m => do return (← m.1.text, ← m.2.toContent room) := by
  induction ms with
  | nil => rw [toFields, List.mapM_nil]
  | cons m ms ih => simp only [toFields, List.mapM_cons, ih, bind_assoc, pure_bind]

theorem toItems_eq_ok {ts : List Tree} {cs : List Content} :
    toItems room ts = .ok cs ↔ List.Forall₂ (fun t c => t.toContent room = .ok c) ts cs := by
  rw [toItems_eq_mapM, mapM_eq_ok]

theorem toFields_eq_ok {ms : List (Quoted × Tree)} {fields : List (String × Content)} :
    toFields room ms = .ok fields ↔
      List.Forall₂ (fun m f => m.1.text = .ok f.1 ∧ m.2.toContent room = .ok f.2) ms fields := by
  have hfield (m : Quoted × Tree) (f : String × Content) :
      (do return (← m.1.text, ← m.2.toContent room)) = Except.ok f ↔
        m.1.text = .ok f.1 ∧ m.2.toContent room = .ok f.2 := by
    simp only [bind_eq_ok, pure, Except.pure, Except.ok.injEq]
    constructor
    · rintro ⟨key, hkey, c, hc, rfl⟩
      exact ⟨hkey, hc⟩
    · rintro ⟨hkey, hc⟩
      exact ⟨f.1, hkey, f.2, hc, rfl⟩
  simp only [toFields_eq_mapM, mapM_eq_ok, hfield]

theorem toContent_text_eq_ok {q : Quoted} :
    (text q).toContent room = .ok c ↔ ∃ s, q.text = .ok s ∧ c = .text s := by
  rw [toContent, bind_eq_ok]
  simp [pure, Except.pure, eq_comm]

theorem toContent_list_eq_ok {items : List Tree} {stop : Option Fault} :
    (list items stop).toContent room = .ok c ↔ ∃ inner contents, room = inner + 1 ∧ stop = none ∧
      List.Forall₂ (fun t d => t.toContent inner = .ok d) items contents ∧ c = .list contents := by
  cases room with
  | zero => simp [toContent]
  | succ inner =>
      rw [toContent, bind_eq_ok]
      constructor
      · rintro ⟨contents, hcontents, h⟩
        obtain ⟨_, hstop, h⟩ := bind_eq_ok.mp h
        exact ⟨inner, contents, rfl, checkStop_eq_ok.mp hstop, toItems_eq_ok.mp hcontents,
          (Except.ok.inj h).symm⟩
      · rintro ⟨_, contents, hroom, rfl, hcontents, rfl⟩
        cases hroom
        exact ⟨contents, toItems_eq_ok.mpr hcontents, rfl⟩

theorem toContent_object_eq_ok {members : List (Quoted × Tree)} {stop : Option Fault} :
    (object members stop).toContent room = .ok c ↔ ∃ inner fields, room = inner + 1 ∧ stop = none ∧
      List.Forall₂ (fun m f => m.1.text = .ok f.1 ∧ m.2.toContent inner = .ok f.2) members fields ∧
      c = .object (sortFields fields) := by
  cases room with
  | zero => simp [toContent]
  | succ inner =>
      rw [toContent, bind_eq_ok]
      constructor
      · rintro ⟨fields, hfields, h⟩
        obtain ⟨_, hstop, h⟩ := bind_eq_ok.mp h
        exact ⟨inner, fields, rfl, checkStop_eq_ok.mp hstop, toFields_eq_ok.mp hfields,
          (Except.ok.inj h).symm⟩
      · rintro ⟨_, fields, hroom, rfl, hfields, rfl⟩
        cases hroom
        exact ⟨fields, toFields_eq_ok.mpr hfields, rfl⟩

end

/-! ## Depth -/

def isContainer : Tree → Bool
  | .list _ _ | .object _ _ => true
  | _ => false

/-- At most so many containers of a tree stand inside one another. -/
def NestedAtMost (t : Tree) (depth : Nat) : Prop :=
  Json.NestedAtMost isContainer parts depth t

instance (t : Tree) (depth : Nat) : Decidable (t.NestedAtMost depth) :=
  decidableNestedAtMost isContainer parts depth t

/-- Where a tree says something, so does every part of it. -/
theorem exists_toContent_of_mem_parts {t : Tree} {room : Nat} {c : Content}
    (h : t.toContent (room + 1) = .ok c) : ∀ u ∈ t.parts, ∃ d, u.toContent room = .ok d := by
  intro u hu
  cases t with
  | list items stop =>
      obtain ⟨_, contents, hroom, -, hcontents, -⟩ := toContent_list_eq_ok.mp h
      cases hroom
      obtain ⟨d, -, hd⟩ := exists_of_mem_left hcontents u hu
      exact ⟨d, hd⟩
  | object members stop =>
      obtain ⟨_, fields, hroom, -, hfields, -⟩ := toContent_object_eq_ok.mp h
      cases hroom
      obtain ⟨m, hm, rfl⟩ := List.mem_map.mp hu
      obtain ⟨field, -, -, hd⟩ := exists_of_mem_left hfields m hm
      exact ⟨field.2, hd⟩
  | _ => cases hu

/-- A tree says something only with room for the containers in it. -/
theorem nestedAtMost_of_toContent {t : Tree} {room : Nat} {c : Content}
    (h : t.toContent room = .ok c) : t.NestedAtMost room := by
  induction room generalizing t c with
  | zero =>
      cases t with
      | list items stop | object members stop =>
        rw [toContent] at h
        cases h
      | _ => rfl
  | succ room ih =>
      intro u hu
      obtain ⟨d, hd⟩ := exists_toContent_of_mem_parts h u hu
      exact ih hd

/-- With room enough, a tree says what it says with any other room. -/
theorem toContent_of_nestedAtMost {t : Tree} {room other : Nat} {c : Content}
    (h : t.toContent room = .ok c) (hother : t.NestedAtMost other) : t.toContent other = .ok c := by
  induction t using Tree.induction generalizing room other c with
  | whole t ih =>
      cases t with
      | list items stop =>
          cases other with
          | zero => cases hother
          | succ other =>
              obtain ⟨inner, contents, -, rfl, hcontents, rfl⟩ := toContent_list_eq_ok.mp h
              refine toContent_list_eq_ok.mpr
                ⟨other, contents, rfl, rfl, forall₂_mono ?_ hcontents, rfl⟩
              intro u hu d hd
              exact ih u hu hd (hother u hu)
      | object members stop =>
          cases other with
          | zero => cases hother
          | succ other =>
              obtain ⟨inner, fields, -, rfl, hfields, rfl⟩ := toContent_object_eq_ok.mp h
              refine toContent_object_eq_ok.mpr
                ⟨other, fields, rfl, rfl, forall₂_mono ?_ hfields, rfl⟩
              rintro m hm field ⟨hkey, hd⟩
              have hu : m.2 ∈ (object members none).parts := List.mem_map_of_mem hm
              exact ⟨hkey, ih m.2 hu hd (hother m.2 hu)⟩
      | null | bool b | number n | text q | cutNumber | broken f => exact h

/-- A tree with a fault says nothing. -/
theorem firstFault_of_toContent {t : Tree} {room : Nat} {c : Content}
    (h : t.toContent room = .ok c) : t.firstFault = none := by
  induction t using Tree.induction generalizing room c with
  | whole t ih =>
      cases t with
      | null | bool b | number n => rfl
      | text q =>
          obtain ⟨s, hs, -⟩ := toContent_text_eq_ok.mp h
          exact Quoted.fault_of_text hs
      | list items stop =>
          obtain ⟨inner, contents, -, rfl, hcontents, -⟩ := toContent_list_eq_ok.mp h
          refine firstFault_list.mpr ⟨fun u hu => ?_, rfl⟩
          obtain ⟨d, -, hd⟩ := exists_of_mem_left hcontents u hu
          exact ih u hu hd
      | object members stop =>
          obtain ⟨inner, fields, -, rfl, hfields, -⟩ := toContent_object_eq_ok.mp h
          refine firstFault_object.mpr ⟨fun m hm => ?_, rfl⟩
          obtain ⟨field, -, hkey, hd⟩ := exists_of_mem_left hfields m hm
          exact ⟨Quoted.fault_of_text hkey, ih m.2 (List.mem_map_of_mem hm) hd⟩
      | cutNumber | broken f => cases h

end Tree

/-- What a text says is what some tree says that has its tokens. -/
theorem content?_eq_ok {s : String} {c : Content} : content? s = .ok c ↔
    ∃ t : Tree, Token.ofChars s.toList = t.tokens ∧ t.toContent maxDepth = .ok c :=
  Document.interpret_eq_ok fun _ _ => Tree.firstFault_of_toContent

end Tether.Json
