import HostBridge.Object.Ref

/-!
# Rosters

A roster holds its members in a chain.  Everybody who may enter knows the member
before, the member after, and whether they are linked at all, so that any member
can leave without a walk along the chain, and leaving twice does no harm.  Members
enter at the front.  `Roster.members` walks the chain from its front.
-/

namespace HostBridge

/-- A chain of references.  Who is not linked has no neighbours. -/
structure Roster where
  first : Option Ref
  size : Nat
  previous : Ref → Option Ref
  next : Ref → Option Ref
  linked : Ref → Bool

namespace Roster

/-- The roster without members. -/
def empty : Roster := ⟨none, 0, fun _ => none, fun _ => none, fun _ => false⟩

instance : Inhabited Roster := ⟨empty⟩

/-- Change what somebody knows, if there is anybody. -/
def write {α : Type} (place : Option Ref) (value : α) (field : Ref → α) : Ref → α :=
  fun ref => if place = some ref then value else field ref

/-- Enter at the front. -/
def pushFront (roster : Roster) (ref : Ref) : Roster :=
  { first := some ref
    size := roster.size + 1
    previous := write roster.first (some ref) (write (some ref) none roster.previous)
    next := write (some ref) roster.first roster.next
    linked := write (some ref) true roster.linked }

/-- Leave the chain; who is not linked leaves it as it is. -/
def unlink (roster : Roster) (ref : Ref) : Roster :=
  if roster.linked ref then
    let previous := roster.previous ref
    let next := roster.next ref
    { first := if previous.isNone then next else roster.first
      size := roster.size - 1
      previous := write (some ref) none (write next previous roster.previous)
      next := write (some ref) none (write previous next roster.next)
      linked := write (some ref) false roster.linked }
  else roster

/-- Let at most `steps` members along the chain know that they are not linked. -/
def detach (roster : Roster) : (steps : Nat) → Option Ref → Roster
  | 0, _ => roster
  | _ + 1, none => roster
  | steps + 1, some ref =>
    let next := roster.next ref
    let roster :=
      { roster with
        previous := write (some ref) none roster.previous
        next := write (some ref) none roster.next
        linked := write (some ref) false roster.linked }
    roster.detach steps next

/-- Forget every member. -/
def detachAll (roster : Roster) : Roster :=
  { roster.detach roster.size roster.first with first := none, size := 0 }

/-- Walk at most `steps` members along the chain. -/
def walk (roster : Roster) : (steps : Nat) → Option Ref → List Ref
  | 0, _ => []
  | _ + 1, none => []
  | steps + 1, some ref => ref :: roster.walk steps (roster.next ref)

/-- The members, the latest to enter first. -/
def members (roster : Roster) : List Ref := roster.walk roster.size roster.first

@[simp]
theorem members_empty : empty.members = [] := rfl

@[simp]
theorem unlink_empty (ref : Ref) : empty.unlink ref = empty := rfl

@[simp]
theorem detachAll_empty : empty.detachAll = empty := rfl

end Roster

end HostBridge
