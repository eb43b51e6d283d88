import HostBridge.Proofs.Ownership.Types
import Mathlib.Data.List.Nodup

/-!
# Slot tables

The numbers of slots are given out in one pass over the constructor, the fields and the
methods of a struct, and accessors, function definitions and the constructor entry keep them.
Here each slot of a table is at the place that its number says, so whoever has kept a number
finds the slot that it was given to.

Runtime code asks by name.  If the exposed names of a struct differ, then the name of a field
leads to that field and the name of a method to that method.
-/

namespace HostBridge

/-- The numbers of slots count up from a first one. -/
def Slot.Numbered (first : Nat) (slots : List Slot) : Prop :=
  ∀ place slot, slots[place]? = some slot → slot.id = first + place

namespace Slot.Numbered

variable {first : Nat} {front back : List Slot}

theorem append (numbered : Numbered first front)
    (numbered' : Numbered (first + front.length) back) : Numbered first (front ++ back) := by
  intro place slot found
  by_cases inside : place < front.length
  · rw [List.getElem?_append_left inside] at found
    exact numbered place slot found
  · rw [List.getElem?_append_right (Nat.le_of_not_lt inside)] at found
    rw [numbered' _ slot found, Nat.add_assoc, Nat.add_sub_of_le (Nat.le_of_not_lt inside)]

/-- Items that are numbered one after the other. -/
theorem map_zipIdx {α : Type} (items : List α) {make : α × Nat → Slot}
    (right : ∀ item place, (make (item, place)).id = first + place) :
    Numbered first (items.zipIdx.map make) := by
  intro place slot found
  rw [List.getElem?_map, List.getElem?_zipIdx] at found
  cases there : items[place]? with
  | none =>
    rw [there] at found
    cases found
  | some item =>
    rw [there, Option.map_some, Option.map_some, Option.some.injEq, Nat.zero_add] at found
    rw [← found, right]

/-- Two slots for each item. -/
theorem flatMap_pair {α : Type} (front back : α → Slot) {items : List α}
    (right : ∀ place item, items[place]? = some item →
      (front item).id = first + 2 * place ∧ (back item).id = first + 2 * place + 1) :
    Numbered first (items.flatMap fun item => [front item, back item]) := by
  intro place slot found
  obtain ⟨even, odd⟩ := Program.getElem?_flatMap_pair front back items (place / 2)
  rcases Nat.mod_two_eq_zero_or_one place with rest | rest
  · have half : place = 2 * (place / 2) := by omega
    rw [half, even] at found
    obtain ⟨item, there, rfl⟩ := Option.map_eq_some_iff.mp found
    have number := (right _ item there).1
    omega
  · have half : place = 2 * (place / 2) + 1 := by omega
    rw [half, odd] at found
    obtain ⟨item, there, rfl⟩ := Option.map_eq_some_iff.mp found
    have number := (right _ item there).2
    omega

end Slot.Numbered

namespace Program

variable (program : Program) (id : StructId) (maker : Option Nat)

theorem numbered_fieldSlots (first : Nat) (fields : List (FieldDecl × Nat)) :
    Slot.Numbered first (fieldSlots id first fields).1 := by
  refine Slot.Numbered.flatMap_pair
    (fun (item : FieldDecl × Nat × Nat) => plainSlot item.2.2 item.1.name "" (.get id item.2.1))
    (fun (item : FieldDecl × Nat × Nat) =>
      plainSlot (item.2.2 + 1) item.1.name "" (.set id item.2.1)) fun place item there => ?_
  rw [List.getElem?_map, List.getElem?_zipIdx] at there
  cases original : fields[place]? with
  | none =>
    rw [original] at there
    cases there
  | some field =>
    rw [original, Option.map_some, Option.map_some, Option.some.injEq, Nat.zero_add] at there
    rw [← there]
    exact ⟨rfl, rfl⟩

/-- Each slot of a struct is at the place that its number says. -/
theorem numbered_plan : Slot.Numbered 0 (program.plan id maker).slots := by
  have numbered : Slot.Numbered 0 (maker.toList.map fun code =>
      plainSlot 0 "__init__" "" (.construct code)) := by
    intro place slot found
    match maker, place with
    | some code, 0 =>
      cases found
      rfl
    | some code, place + 1 | none, place => cases found
  rw [plan]
  refine Slot.Numbered.append (numbered.append ?_) ?_
  · rw [Nat.zero_add]
    exact numbered_fieldSlots id _ _
  · rw [Nat.zero_add, List.length_append]
    exact Slot.Numbered.map_zipIdx _ fun _ _ => rfl

/-! ## Names -/

/-- The names under which runtime code finds the fields and the methods of a struct. -/
def exposedNames : List String :=
  (exportedFields (program.struct id)).map (fun (field, _) => Name.snake field.name) ++
    (program.struct id).methods.map fun method => Name.snake method.name

/-- The first item of a name is the only one if the names of items differ. -/
theorem find?_of_nodup {α : Type} {items : List α} (name : α → String)
    (distinct : (items.map name).Nodup) {item : α} (member : item ∈ items) :
    items.find? (fun other => name other = name item) = some item := by
  induction items with
  | nil => cases member
  | cons first rest ih =>
    rw [List.map_cons, List.nodup_cons] at distinct
    rcases List.mem_cons.mp member with rfl | later
    · rw [List.find?_cons_of_pos (by simp)]
    · have apart : name first ≠ name item := fun same =>
        distinct.1 (same ▸ List.mem_map_of_mem later)
      rw [List.find?_cons_of_neg (by simpa using apart), ih distinct.2 later]

variable {program id}

/-- A field is found under its name. -/
theorem fieldNamed?_of_nodup (distinct : (program.exposedNames id).Nodup) {field : FieldDecl}
    {index : Nat} (member : (field, index) ∈ exportedFields (program.struct id)) :
    program.fieldNamed? id (Name.snake field.name) = some index := by
  have found := find?_of_nodup (fun ((field, _) : FieldDecl × Nat) => Name.snake field.name)
    (List.nodup_append'.mp distinct).1 member
  exact congrArg (Option.map Prod.snd) found

/-- A method is found under its name, and no field is. -/
theorem methodNamed?_of_nodup (distinct : (program.exposedNames id).Nodup) {method : MethodDecl}
    {index : Nat} (declared : (program.struct id).methods[index]? = some method) :
    program.fieldNamed? id (Name.snake method.name) = none ∧
      program.methodNamed? id (Name.snake method.name) = some index := by
  obtain ⟨_, methods, apart⟩ := List.nodup_append'.mp distinct
  constructor
  · rw [fieldNamed?, Option.map_eq_none_iff, List.find?_eq_none]
    rintro ⟨field, place⟩ member same
    have taken : Name.snake field.name ∈
        (program.struct id).methods.map fun (method : MethodDecl) => Name.snake method.name := by
      rw [of_decide_eq_true same]
      exact List.mem_map_of_mem (List.mem_of_getElem? declared)
    exact apart (List.mem_map_of_mem member) taken
  · have numbered : (program.struct id).methods.zipIdx.map
        (fun entry : MethodDecl × Nat => Name.snake entry.1.name) =
          (program.struct id).methods.map fun method => Name.snake method.name := by
      conv => rhs; rw [← List.zipIdx_map_fst 0 (program.struct id).methods, List.map_map]
      rfl
    rw [← numbered] at methods
    have member : (method, index) ∈ (program.struct id).methods.zipIdx :=
      List.mem_zipIdx_iff_getElem?.mpr declared
    have found := find?_of_nodup _ methods member
    exact congrArg (Option.map Prod.snd) found

end Program

end HostBridge
