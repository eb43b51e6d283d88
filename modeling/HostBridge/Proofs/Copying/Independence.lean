import HostBridge.Proofs.Copying.Editing
import HostBridge.Proofs.Copying.Separation

/-!
# Copies share no state

Whatever a client does with a copy leaves everything alone that was there before, the value that has
been copied included, and nothing that it does elsewhere is seen in the copy.  Wrappers in a copy own
their values: they look like aliases of the value that has been copied, but they are none.
-/

namespace HostBridge

variable {program : Program}

/-- One comes to the same objects if those that one comes to have the same contents. -/
theorem Heap.exposes_iff {heap later : Heap} {ref : Ref}
    (same : ∀ inner, heap.Exposes ref inner → later.body inner = heap.body inner) (inner : Ref) :
    later.Exposes ref inner ↔ heap.Exposes ref inner := by
  constructor
  · intro exposes
    induction exposes with
    | refl => exact .refl
    | step _ member ih =>
      rw [same _ ih] at member
      exact .step ih member
  · intro exposes
    induction exposes with
    | refl => exact .refl
    | step reached member ih =>
      rw [← same _ reached] at member
      exact .step ih member

namespace World

/-- A copy that has been made on the way from one world to another, the client holding `held`
besides, shares nothing that can be changed with what was there before, and goes on like this. -/
structure Independent (program : Program) (before after : World) (held : Multiset Ref) (ref : Ref) :
    Prop where
  /-- What can be changed of the copy is new, and one does not come to it from older objects. -/
  new : ∀ inner, after.heap.Exposes ref inner → (after.heap.body inner).Mutable →
    before.heap.size ≤ inner.place ∧
      ∀ other, other.place < before.heap.size → ¬after.heap.Exposes other inner
  /-- What was there before, modules apart, is left alone by all edits of what is new. -/
  outside : ∀ permitted last left, (∀ target, permitted target → before.heap.size ≤ target.place) →
    Editing program 0 permitted after ({ref} + held) last left →
    ∀ other cell later, before.heap.cell? other = some cell →
      (∀ contents, cell.body ≠ .module contents) → last.heap.cell? other = some later →
        later.body = cell.body
  /-- The copy is left alone by all edits of what one does not come to from it. -/
  inside : ∀ permitted last left, (∀ target, permitted target → ¬after.heap.Exposes ref target) →
    Editing program {ref} permitted after ({ref} + held) last left →
    ∀ inner, (last.heap.Exposes ref inner ↔ after.heap.Exposes ref inner) ∧
      (after.heap.Exposes ref inner → last.heap.holds inner = true ∧
        last.heap.body inner = after.heap.body inner)
  /-- Another copy has nothing in common with it that can be changed. -/
  again : ∀ middle final held' type value ref', World.Leads program Permission.anything after middle →
    middle.Reached program held' → type.Inert program → middle.Copies program type value ref' final →
    ∀ inner, final.heap.Exposes ref inner → final.heap.Exposes ref' inner →
      ¬(final.heap.body inner).Mutable

namespace Separate

variable {before after : World} {held : Multiset Ref} {ref : Ref}

/-- There are no modules in a copy. -/
theorem not_module (separate : before.Separate after ref) {inner : Ref}
    (exposes : after.heap.Exposes ref inner) (contents : ModuleBody) :
    after.heap.body inner ≠ .module contents := by
  intro reading
  have built := (separate.new inner exposes (by rw [reading]; trivial)).2
  rw [reading] at built
  exact built

/-- All that one comes to from what is held is there for those who hold it. -/
theorem stable (separate : before.Separate after ref) :
    after.Stable Permission.nothing {ref} (after.heap.Exposes ref) := by
  intro inner exposes
  obtain ⟨cell, present⟩ := Option.isSome_iff_exists.mp (separate.there inner exposes)
  refine ⟨cell, present, id, ?_⟩
  cases exposes with
  | refl => exact .inl (Multiset.mem_singleton_self ref)
  | @step outer _ reached member =>
    obtain ⟨outerCell, outerPresent⟩ :=
      Option.isSome_iff_exists.mp (separate.there outer reached)
    rw [Heap.body_eq outerPresent] at member
    exact .inr (.inr ⟨outer, outerCell, reached, outerPresent, Body.parts_subset _ member⟩)

theorem place_lt (separate : before.Separate after ref) {inner : Ref}
    (exposes : after.heap.Exposes ref inner) : inner.place < after.heap.size := by
  obtain ⟨cell, present⟩ := Option.isSome_iff_exists.mp (separate.there inner exposes)
  exact Heap.place_lt_size present

/-- Edits of other objects leave a copy that the client keeps as it is. -/
theorem inside (separate : before.Separate after ref) (honest : program.Honest)
    (sound : after.Sound program ({ref} + held)) {permitted : Ref → Prop} {last : World}
    {left : Multiset Ref} (forbidden : ∀ target, permitted target → ¬after.heap.Exposes ref target)
    (editing : Editing program {ref} permitted after ({ref} + held) last left) {inner : Ref}
    (exposes : after.heap.Exposes ref inner) :
    last.heap.holds inner = true ∧ last.heap.body inner = after.heap.body inner := by
  have course := editing.course honest sound (fun _ => separate.place_lt)
    (fun _ => separate.not_module) forbidden
  have kept : ({ref} + held) - {ref} + {ref} = {ref} + held :=
    tsub_add_cancel_of_le (Multiset.le_add_right _ _)
  obtain ⟨keeps, _⟩ := course.keeps (by rwa [kept]) separate.stable fun _ => id
  obtain ⟨cell, present⟩ := Option.isSome_iff_exists.mp (separate.there inner exposes)
  obtain ⟨later, found, same⟩ := keeps inner exposes cell present
  exact ⟨Option.isSome_iff_exists.mpr ⟨later, found⟩, by
    rw [Heap.body_eq found, same, Heap.body_eq present]⟩

/-- Edits of what is new leave older objects as they were. -/
theorem outside (separate : before.Separate after ref) (honest : program.Honest)
    (sound : after.Sound program ({ref} + held)) {permitted : Ref → Prop} {last : World}
    {left : Multiset Ref} (fresh : ∀ target, permitted target → before.heap.size ≤ target.place)
    (editing : Editing program 0 permitted after ({ref} + held) last left) {other : Ref}
    {cell later : Cell} (present : before.heap.cell? other = some cell)
    (stays : ∀ contents, cell.body ≠ .module contents)
    (found : last.heap.cell? other = some later) : later.body = cell.body := by
  have old := Heap.place_lt_size present
  have used := Nat.lt_of_lt_of_le old separate.places
  have same := separate.old other old
  rw [present, Option.map_some] at same
  obtain ⟨middle, there, body⟩ := Option.map_eq_some_iff.mp same
  have course : Course program (· = other) after ({ref} + held - 0) last (left - 0) := by
    refine editing.course honest sound ?_ ?_ ?_
    · rintro _ rfl
      exact used
    · rintro _ rfl contents reading
      exact stays contents (by rw [← body, ← Heap.body_eq there, reading])
    · rintro _ permits rfl
      exact absurd (fresh _ permits) (Nat.not_le.mpr old)
  have spares := course.spares fun _ same => by rwa [same]
  exact (spares other rfl middle later there found).trans body

end Separate

end World

/-- Copies share no state.  If a value of a type in which there are no runtime objects is encoded, or
a field with such a value is read that is not declared with a registered struct, then the object is
independent of everything else: no edit of it changes what has been copied, or anything older, and no
other edit changes the object.  This goes for the wrappers in it as well. -/
theorem World.Reached.copies_independent (honest : program.Honest) {before after : World}
    {held : Multiset Ref} (reached : before.Reached program held) {type : HostType}
    {value : HostValue} {ref : Ref} (inert : type.Inert program)
    (copies : before.Copies program type value ref after) :
    value.references = [] ∧ after.Reached program ({ref} + held) ∧
      before.Independent program after held ref := by
  have soundBefore := reached.sound honest
  obtain ⟨_, none, _⟩ := copies.exists_encoded soundBefore inert
  obtain ⟨separate, on⟩ := copies.separate honest reached inert
  have sound := on.sound honest
  refine ⟨none, on, ⟨?_, ?_, ?_, ?_⟩⟩
  · intro inner exposes changes
    exact ⟨(separate.new inner exposes changes).1, fun other old =>
      separate.apart soundBefore exposes changes old⟩
  · intro permitted last left fresh editing other cell later present stays found
    exact separate.outside honest sound fresh editing present stays found
  · intro permitted last left forbidden editing inner
    have same : ∀ inner, after.heap.Exposes ref inner → _ := fun inner exposes =>
      separate.inside honest sound forbidden editing exposes
    exact ⟨Heap.exposes_iff (fun inner exposes => (same inner exposes).2) inner, same inner⟩
  · intro middle final held' type' value' ref' leads reached' inert' copies' inner mine its changes
    obtain ⟨separate', _⟩ := copies'.separate honest reached' inert'
    have old := leads.used (separate.place_lt .refl)
    exact separate'.apart (reached'.sound honest) its changes old mine

namespace Figures

/-- A point in a box. -/
def boxing : HostType × HostValue :=
  (.boxed (.struct ⟨0⟩), .boxed (.struct [.int 1, .int 2]))

theorem inert_boxing : boxing.1.Inert Figures.program := by
  refine ⟨(· = ⟨0⟩), ?_, rfl⟩
  rintro _ rfl field member
  have fields : (Figures.program.struct ⟨0⟩).fields.map (·.type) = [number, number] := rfl
  have type : field.type ∈ [number, number] := by
    rw [← fields]
    exact List.mem_map_of_mem member
  have same : field.type = number := by simpa using type
  rw [same]
  trivial

/-- The point is moved. -/
def moving : Mutation :=
  .update bridge (.struct ⟨0⟩) fun _ => .struct [.int 5, .int 2]

end Figures

open Figures in
set_option maxRecDepth 10000 in
/-- A point in a box is encoded as a wrapper like the one that is there already for a point.  The
latter shows what it has shown when the copy has been moved. -/
theorem World.Reached.copies_independent_box : ∃ before after last : World,
    before.heap.ownedValue? ⟨7⟩ = some (.struct [.int 1, .int 2]) ∧
      (Figures.program.toObject bridge boxing.1 boxing.2).run before = (.ok ⟨8⟩, after) ∧
      ((moving.request ⟨8⟩).run Figures.program).run after = (.ok [], last) ∧
      last.heap.ownedValue? ⟨8⟩ = some (.struct [.int 5, .int 2]) ∧
      last.heap.ownedValue? ⟨7⟩ = some (.struct [.int 1, .int 2]) := by
  generalize played : Request.played Figures.program wrapping = before
  rcases copied : (Figures.program.toObject bridge boxing.1 boxing.2).run before with ⟨result, after⟩
  rcases moved : ((moving.request ⟨8⟩).run Figures.program).run after with ⟨outcome, last⟩
  have facts : (before.heap.size, before.heap.ownedValue? ⟨7⟩, result.toOption,
      outcome.toOption, last.heap.ownedValue? ⟨8⟩, (last.heap.cell? ⟨7⟩).isSome,
      (after.heap.wrapper? ⟨8⟩).map fun held => (Heap.location ⟨8⟩ held.1).1) =
      (8, some (.struct [.int 1, .int 2]), some ⟨8⟩, some [], some (.struct [.int 5, .int 2]), true,
        some ⟨8⟩) := by
    obtain rfl : _ = result := congrArg Prod.fst copied
    obtain rfl : _ = after := congrArg Prod.snd copied
    obtain rfl : _ = outcome := congrArg Prod.fst moved
    obtain rfl : _ = last := congrArg Prod.snd moved
    subst played
    cbv
  simp only [Prod.mk.injEq, Option.map_eq_some_iff, Prod.exists] at facts
  obtain ⟨size, owned, made, ended, shown, there, content, bridged, wrapper, root⟩ := facts
  obtain rfl : result = .ok ⟨8⟩ := eq_ok_of_toOption made
  obtain rfl : outcome = .ok [] := eq_ok_of_toOption ended
  have reached : before.Reached Figures.program (Request.kept Figures.program wrapping) := by
    rw [← played]
    exact ⟨_, _, playable_wrapping.session, .refl _ _⟩
  obtain ⟨_, _, independent⟩ := World.Reached.copies_independent Figures.honest reached inert_boxing
    (.encoded rfl copied)
  have start : Editing Figures.program 0 (before.heap.size ≤ ·.place) after
      ({⟨8⟩} + Request.kept Figures.program wrapping) after
      ((moving.request ⟨8⟩).spent + ({⟨8⟩} + Request.kept Figures.program wrapping)) := by
    rw [moving.spent_request, zero_add]
    exact .refl
  have edits : (moving.request ⟨8⟩).Edits Figures.program after
      ((moving.request ⟨8⟩).spent + ({⟨8⟩} + Request.kept Figures.program wrapping))
      (Heap.location ⟨8⟩ content).1 := .mutate moving (by simp) wrapper rfl
  rw [root] at edits
  have allowed : (moving.request ⟨8⟩).Allowed Figures.program after := by
    refine ⟨fun ref member => absurd member List.not_mem_nil, ?_⟩
    intro value _
    have fit : (HostValue.struct [.int 5, .int 2]).fits Figures.program (.struct ⟨0⟩) = true := by
      decide
    exact .of_fit fit rfl
  have editing := start.step (Multiset.zero_le _) (.inr ⟨⟨8⟩, size.le, edits⟩) allowed moved
  obtain ⟨cell, type, registry, present, body⟩ := Heap.ownedValue?_eq_some.mp owned
  obtain ⟨later, found⟩ := Option.isSome_iff_exists.mp there
  have same := independent.outside _ last _ (fun _ => id) editing ⟨7⟩ cell later present
    (by simp [body]) found
  exact ⟨before, after, last, owned, copied, moved, shown,
    Heap.ownedValue?_eq_some.mpr ⟨later, type, registry, found, same.trans body⟩⟩

end HostBridge
