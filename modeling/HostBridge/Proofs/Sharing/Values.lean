import HostBridge.Proofs.Ownership.Dispatch
import HostBridge.Proofs.Sharing.Course
import HostBridge.Proofs.Value.Place

/-!
# Values behind wrappers

Only an exchange changes the values that wrappers own, and it changes one value
at one place.  Everything else that happens to the world leaves the values of the
wrappers alone that are still there.
-/

namespace HostBridge

variable {program : Program} {touch : Permission}

/-! ## Steps that leave values alone -/

/-- No wrapper that owns a value is changed. -/
def Permission.Spares (touch : Permission) : Prop :=
  ∀ type registry value, ¬touch (.instance type (some (.wrapper registry (.owned value))))

theorem Permission.spares_nothing : Permission.Spares Permission.nothing := fun _ _ _ => id

namespace World

/-- Every wrapper that owns a value and does not go away goes on owning it. -/
def KeepsValues (before after : World) : Prop :=
  ∀ ref value later, before.heap.ownedValue? ref = some value →
    after.heap.cell? ref = some later → after.heap.ownedValue? ref = some value

theorem Leads.keepsValues {before after : World} (spares : Permission.Spares touch)
    (leads : World.Leads program touch before after) : before.KeepsValues after := by
  intro ref value later owned found
  obtain ⟨cell, type, registry, present, body⟩ := Heap.ownedValue?_eq_some.mp owned
  obtain ⟨_, _, path⟩ := leads
  have same := path.same_body present (by rw [body]; exact spares type registry value) found
  exact Heap.ownedValue?_eq_some.mpr ⟨later, type, registry, found, same.trans body⟩

/-- The value that a wrapper owns is changed at one place, and no other object is. -/
structure Writes (program : Program) (before : World) (given : Multiset Ref) (after : World)
    (left : Multiset Ref) (root : Ref) (place : List Nat) (new : HostValue) : Prop where
  course : Course program (· ≠ root) before given after left
  written : ∀ value later, before.heap.ownedValue? root = some value →
    after.heap.cell? root = some later → after.heap.ownedValue? root = some (value.put place new)

theorem place_lt_of_ownedValue? {world : World} {ref : Ref} {value : HostValue}
    (owned : world.heap.ownedValue? ref = some value) : ref.place < world.heap.size := by
  obtain ⟨cell, _, _, present, _⟩ := Heap.ownedValue?_eq_some.mp owned
  exact Heap.place_lt_size present

namespace Writes

variable {before after : World} {given left : Multiset Ref} {root : Ref} {place : List Nat}
  {new : HostValue}

theorem leads (writes : before.Writes program given after left root place new) :
    World.Leads program Permission.anything before after :=
  ⟨given, left, writes.course.path⟩

/-- Every other wrapper goes on owning its value. -/
theorem others (writes : before.Writes program given after left root place new) {ref : Ref}
    {value : HostValue} {later : Cell} (distinct : ref ≠ root)
    (owned : before.heap.ownedValue? ref = some value)
    (found : after.heap.cell? ref = some later) : after.heap.ownedValue? ref = some value := by
  obtain ⟨cell, type, registry, present, body⟩ := Heap.ownedValue?_eq_some.mp owned
  have alone : Course program (· = ref) before given after left :=
    writes.course.sparing fun other same => by rwa [same]
  have spares := alone.spares fun other same => by rw [same]; exact place_lt_of_ownedValue? owned
  exact Heap.ownedValue?_eq_some.mpr
    ⟨later, type, registry, found, (spares ref rfl cell later present found).trans body⟩

/-- What other code holds takes no part in a write. -/
theorem frame (writes : before.Writes program given after left root place new)
    (frame : Multiset Ref) :
    before.Writes program (given + frame) after (left + frame) root place new :=
  ⟨writes.course.frame frame, writes.written⟩

end Writes

/-- What happens before and after a write may leave values alone. -/
theorem Writes.between {first second third fourth : World} {given held left taken : Multiset Ref}
    {root : Ref} {place : List Nat} {new : HostValue}
    (front : Path program Permission.nothing first given second held)
    (writes : second.Writes program held third left root place new)
    (back : Path program Permission.nothing third left fourth taken) :
    first.Writes program given fourth taken root place new := by
  refine ⟨((Course.of_still front).trans writes.course).trans (.of_still back), ?_⟩
  intro value later owned found
  -- The wrapper is there in the end, so it has been there all along.
  have used := Nat.lt_of_lt_of_le (place_lt_of_ownedValue? owned) front.grows.places
  obtain ⟨final, presentFinal⟩ :=
    back.present (Nat.lt_of_lt_of_le used writes.course.path.grows.places) found
  obtain ⟨middle, presentMiddle⟩ := writes.course.path.present used presentFinal
  have keepsFront := Leads.keepsValues Permission.spares_nothing ⟨_, _, front⟩
  have keepsBack := Leads.keepsValues Permission.spares_nothing ⟨_, _, back⟩
  have owned' := keepsFront root value middle owned presentMiddle
  exact keepsBack root _ later (writes.written value final owned' presentFinal) found

/-- What leaves values alone writes what is there, at each place behind a wrapper. -/
theorem Wired.writes {before after : World} {given left : Multiset Ref}
    (wired : before.Wired program) (path : Path program Permission.nothing before given after left)
    {ref : Ref} {content : Held} {bridged : BridgedType} {inner : List Nat} {type : HostType}
    (wrapper : before.heap.wrapper? ref = some (content, bridged))
    (typed : program.typeAt? (.struct bridged.host) inner = some type) :
    ∃ old, before.Writes program given after left (Heap.location ref content).1
      ((Heap.location ref content).2 ++ inner) old := by
  obtain ⟨value, rootType, owner, _, above⟩ := wired.location wrapper
  have place : program.typeAt? (.struct rootType.host)
      ((Heap.location ref content).2 ++ inner) = some type := by
    rw [Program.typeAt?_append, above, Option.bind_some, typed]
  obtain ⟨old, present, _⟩ := HostValue.at?_of_fits (wired.fits_owned owner) place
  have keeps := Leads.keepsValues Permission.spares_nothing ⟨_, _, path⟩
  refine ⟨old, .of_still path, ?_⟩
  intro value' later owned found
  rw [Heap.ownedValue?_of_wrapper? owner, Option.some.injEq] at owned
  subst owned
  rw [HostValue.put_at? present]
  exact keeps _ value later (Heap.ownedValue?_of_wrapper? owner) found

/-- What leaves values alone writes behind each wrapper what is there. -/
theorem Wired.writes_behind {before after : World} {given left : Multiset Ref}
    (wired : before.Wired program) (path : Path program Permission.nothing before given after left)
    {ref : Ref} {content : Held} {bridged : BridgedType}
    (wrapper : before.heap.wrapper? ref = some (content, bridged)) :
    ∃ part, before.Writes program given after left (Heap.location ref content).1
      (Heap.location ref content).2 part := by
  obtain ⟨part, writes⟩ := wired.writes path wrapper (Program.typeAt?_nil _)
  rw [List.append_nil] at writes
  exact ⟨part, writes⟩

theorem Writes.putValue {world : World} {given left : Multiset Ref} {root : Ref} {value : HostValue}
    (owned : world.heap.ownedValue? root = some value) (place : List Nat) (new : HostValue)
    (course : Course program (· ≠ root) world given (world.putValue root place new) left) :
    world.Writes program given (world.putValue root place new) left root place new := by
  obtain ⟨cell, type, registry, present, body⟩ := Heap.ownedValue?_eq_some.mp owned
  refine ⟨course, ?_⟩
  intro value' later owned' found
  rw [owned, Option.some.injEq] at owned'
  subst owned'
  refine Heap.ownedValue?_eq_some.mpr ⟨{ cell with
    body := .instance type (some (.wrapper registry (.owned (value.put place new)))) },
    type, registry, ?_, rfl⟩
  rw [putValue_eq present body]
  show (world.heap.setBody root _).cell? root = _
  rw [Heap.setBody_of_cell _ present, Heap.cell?_put _ present, if_pos rfl]

end World

end HostBridge
