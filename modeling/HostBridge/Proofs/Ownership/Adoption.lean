import HostBridge.Proofs.Ownership.Wrapper

/-!
# Contracts of adoption

A value that something comes to own gets references of its own, and the keyword
dicts that it lacks.  It is exchanged for the value at a place behind a wrapper,
or discarded.  A wrapper is made from what it is to hold.
-/

namespace HostBridge

variable {program : Program} {touch : Permission}

/-- Objects are made, and references to them are traded for others. -/
structure World.Makes (program : Program) (touch : Permission) (before : World) (given : List Ref)
    (after : World) (taken : List Ref) : Prop where
  path : ∀ held : Multiset Ref, Path program touch before (held + given) after (held + taken)
  more : before.Extends after

namespace World.Makes

variable {first second third : World} {given taken given' taken' : List Ref}

theorem refl (world : World) (refs : List Ref) :
    World.Makes program touch world refs world refs :=
  ⟨fun _ => .refl _ _, .refl world⟩

/-- References that are traded one after the other. -/
theorem append (front : World.Makes program touch first given second taken)
    (back : World.Makes program touch second given' third taken') :
    World.Makes program touch first (given ++ given') third (taken ++ taken') where
  path := by
    intro held
    have one := front.path (held + given')
    have two := back.path (held + taken)
    rw [← Multiset.coe_add, ← Multiset.coe_add, ← add_assoc, ← add_assoc]
    rw [add_right_comm held given' given, add_right_comm held given' taken] at one
    exact one.trans two
  more := front.more.trans back.more

end World.Makes

namespace HostValue

/-! ## Missing keyword dicts -/

mutual

/-- The missing dicts of a value are made. -/
theorem makes_completed : ∀ (value : HostValue) (world : World),
    World.Makes program touch world value.references (value.completed world).2
      (value.completed world).1.references
  | .keywords none, world => by
    refine ⟨fun held => ?_, .place world _⟩
    have made : Path program touch world (held + (Body.dict .empty).references)
        (world.place (.dict .empty)).2 (held + {world.heap.next}) := .place trivial
    exact made
  | .seq elements, world | .tuple elements, world | .struct elements, world =>
    makes_completedAll elements world
  | .map entries, world => makes_completedEntries entries world
  | .boxed value, world | .present value, world => makes_completed value world
  | .unit, _ | .bool _, _ | .int _, _ | .single _, _ | .double _, _ | .complexSingle _ _, _
  | .complexDouble _ _, _ | .text _, _ | .bytes _, _ | .absent, _ | .object _, _
  | .keywords (some _), _ | .sealed _, _ => .refl _ _

theorem makes_completedAll : ∀ (values : List HostValue) (world : World),
    World.Makes program touch world (referencesAll values) (completedAll values world).2
      (referencesAll (completedAll values world).1)
  | [], world => .refl world _
  | value :: values, world =>
    (makes_completed value world).append (makes_completedAll values _)

theorem makes_completedEntries : ∀ (entries : List (HostValue × HostValue)) (world : World),
    World.Makes program touch world (referencesEntries entries) (completedEntries entries world).2
      (referencesEntries (completedEntries entries world).1)
  | [], world => .refl world _
  | (key, value) :: entries, world =>
    ((makes_completed key world).append (makes_completed value _)).append
      (makes_completedEntries entries _)

end

mutual

/-- A value keeps its type when its missing dicts are made. -/
theorem fits_completed : ∀ (type : HostType) (value : HostValue) (world : World),
    (value.completed world).1.fits program type = value.fits program type
  | type, .keywords none, world => by
    cases type with
    | float width | complex width => cases width <;> rfl
    | _ => rfl
  | type, .seq elements, world => by
    cases type with
    | seq element => exact fitsEach_completedAll element elements world
    | float width | complex width => cases width <;> rfl
    | _ => rfl
  | type, .tuple elements, world => by
    cases type with
    | tuple types => exact fitsAll_completedAll types elements world
    | float width | complex width => cases width <;> rfl
    | _ => rfl
  | type, .struct elements, world => by
    cases type with
    | struct id => exact fitsAll_completedAll _ elements world
    | float width | complex width => cases width <;> rfl
    | _ => rfl
  | type, .map entries, world => by
    cases type with
    | map order key value => exact fitsEntries_completedEntries key value entries world
    | float width | complex width => cases width <;> rfl
    | _ => rfl
  | type, .boxed value, world => by
    cases type with
    | boxed element => exact fits_completed element value world
    | float width | complex width => cases width <;> rfl
    | _ => rfl
  | type, .present value, world => by
    cases type with
    | optional element => exact fits_completed element value world
    | float width | complex width => cases width <;> rfl
    | _ => rfl
  | _, .unit, _ | _, .bool _, _ | _, .int _, _ | _, .single _, _ | _, .double _, _
  | _, .complexSingle _ _, _ | _, .complexDouble _ _, _ | _, .text _, _ | _, .bytes _, _
  | _, .absent, _ | _, .object _, _ | _, .keywords (some _), _ | _, .sealed _, _ => rfl

theorem fitsEach_completedAll : ∀ (type : HostType) (values : List HostValue) (world : World),
    fitsEach program type (completedAll values world).1 = fitsEach program type values
  | _, [], _ => rfl
  | type, value :: values, world => by
    simp only [completedAll, fitsEach, fits_completed type value world,
      fitsEach_completedAll type values _]

theorem fitsAll_completedAll : ∀ (types : List HostType) (values : List HostValue) (world : World),
    fitsAll program types (completedAll values world).1 = fitsAll program types values
  | _, [], _ => rfl
  | [], value :: values, world => rfl
  | type :: types, value :: values, world => by
    simp only [completedAll, fitsAll, fits_completed type value world,
      fitsAll_completedAll types values _]

theorem fitsEntries_completedEntries : ∀ (keyType valueType : HostType)
    (entries : List (HostValue × HostValue)) (world : World),
    fitsEntries program keyType valueType (completedEntries entries world).1 =
      fitsEntries program keyType valueType entries
  | _, _, [], _ => rfl
  | keyType, valueType, (key, value) :: entries, world => by
    simp only [completedEntries, fitsEntries, fits_completed keyType key world,
      fits_completed valueType value _, fitsEntries_completedEntries keyType valueType entries _]

end

end HostValue

/-! ## Adopting and discarding -/

namespace World.Makes

variable {world after : World} {taken : List Ref}

/-- Objects that are made out of nothing, while others are held. -/
theorem path_new (makes : World.Makes program touch world [] after taken) (held : Multiset Ref) :
    Path program touch world held after (held + taken) := by
  have path := makes.path held
  rwa [Multiset.coe_nil, add_zero] at path

theorem leads {given : List Ref} (makes : World.Makes program touch world given after taken) :
    World.Leads program touch world after :=
  ⟨_, _, makes.path 0⟩

theorem retainAll {refs : List Ref} (used : ∀ ref ∈ refs, ref.place < world.heap.size) :
    World.Makes program touch world [] (world.retainAll refs) refs where
  path held := by
    rw [Multiset.coe_nil, add_zero]
    exact .retainAll used
  more := .retainAll world refs

theorem trans {given : List Ref} {first second third : World} {middle : List Ref}
    (front : World.Makes program touch first given second middle)
    (back : World.Makes program touch second middle third taken) :
    World.Makes program touch first given third taken :=
  ⟨fun held => (front.path held).trans (back.path held), front.more.trans back.more⟩

end World.Makes

/-- To put a value inside the one that a wrapper owns is to change the contents of the wrapper. -/
theorem World.putValue_eq {world : World} {root : Ref} {cell : Cell} {shape : Ref}
    {registry : RegistryId} {value : HostValue} (there : world.heap.cell? root = some cell)
    (body : cell.body = .instance shape (some (.wrapper registry (.owned value))))
    (path : List Nat) (new : HostValue) :
    world.putValue root path new =
      { world with
        heap := world.heap.setBody root
          (.instance shape (some (.wrapper registry (.owned (value.put path new))))) } := by
  rw [World.putValue, Heap.body_eq there, body]

namespace Op

variable {world : World}

/-- An operation that cannot fail and makes objects at most. -/
def Makes {α : Type} (program : Program) (touch : Permission) (action : Op α) (world : World)
    (given : List Ref) (taken : α → List Ref) (post : α → World → Prop) : Prop :=
  ∃ value after, action.run world = (.ok value, after) ∧
    World.Makes program touch world given after (taken value) ∧ post value after

theorem Makes.runs {α : Type} {action : Op α} {given : List Ref} {taken : α → List Ref}
    {post : α → World → Prop} (makes : Makes program touch action world given taken post) :
    Runs program touch action world given (fun value => taken value) fun value after =>
      world.Extends after ∧ post value after := by
  obtain ⟨value, after, ended, made, holds⟩ := makes
  have path := made.path 0
  rw [zero_add, zero_add] at path
  exact .of_ok ended path ⟨made.more, holds⟩

/-- Two such operations, one after the other. -/
theorem Makes.bind {α β : Type} {first : Op α} {next : α → Op β} {given : List Ref}
    {middle : α → List Ref} {taken : β → List Ref} {post : α → World → Prop}
    {post' : β → World → Prop} (makes : Makes program touch first world given middle post)
    (later : ∀ value after, World.Makes program touch world given after (middle value) →
      post value after → Makes program touch (next value) after (middle value) taken post') :
    Makes program touch (first >>= next) world given taken post' := by
  obtain ⟨value, after, ended, made, holds⟩ := makes
  obtain ⟨value', final, ended', made', holds'⟩ := later value after made holds
  refine ⟨value', final, ?_, made.trans made', holds'⟩
  rw [Operation.run_bind_of_ok ended, ended']

theorem run_adopt (value : HostValue) (world : World) :
    (adopt value).run world =
      (.ok (value.completed (world.retainAll value.references)).1,
        (value.completed (world.retainAll value.references)).2) := rfl

/-- An owned value is one of the types that the value has. -/
theorem makes_adopt {value : HostValue}
    (used : ∀ ref ∈ value.references, ref.place < world.heap.size) :
    Makes program touch (adopt value) world [] HostValue.references fun adopted _ =>
      ∀ type, adopted.fits program type = value.fits program type :=
  ⟨_, _, rfl, (World.Makes.retainAll used).trans (HostValue.makes_completed value _),
    fun type => HostValue.fits_completed type value _⟩

theorem makes_adoptAll {values : List HostValue}
    (used : ∀ ref ∈ HostValue.referencesAll values, ref.place < world.heap.size) :
    Makes program touch (adoptAll values) world [] HostValue.referencesAll fun adopted _ =>
      ∀ types, HostValue.fitsAll program types adopted = HostValue.fitsAll program types values :=
  ⟨_, _, rfl, (World.Makes.retainAll used).trans (HostValue.makes_completedAll values _),
    fun types => HostValue.fitsAll_completedAll types values _⟩

theorem runs_discard (value : HostValue) :
    Runs program touch (discard value) world value.references (fun _ => 0) fun _ _ => True :=
  runs_releaseAll value.references

/-! ## Exchanging -/

/-- Writing at a place of a value that a wrapper owns trades the references of the
new value and the old one. -/
theorem step_putValue (values : ∀ type registry value,
      touch (.instance type (some (.wrapper registry (.owned value)))))
    (wired : world.Wired program) {root : Ref} {value old new : HostValue} {rootType : BridgedType}
    {path : List Nat} {type : HostType}
    (owner : world.heap.wrapper? root = some (.owned value, rootType))
    (present : value.at? path = some old)
    (typed : program.typeAt? (.struct rootType.host) path = some type)
    (fit : new.fits program type = true) :
    Step program touch world new.references (world.putValue root path new) old.references := by
  obtain ⟨cell, shape, registry, there, body, bridged⟩ := Heap.wrapper?_eq_some.mp owner
  have whole := HostValue.fits_put (wired.fits_owned owner) typed fit
  rw [World.putValue_eq there body]
  refine .rewrite root _ there (by rw [body]; exact values _ _ _) ?_ ?_
  · rw [body]
    exact .value bridged whole
  · have traded := HostValue.references_put new present
    rw [body]
    simp only [Body.references, Option.map_some, Option.getD_some, Payload.references,
      Held.references, ← Multiset.coe_add]
    rw [← add_assoc, ← add_assoc, add_comm (old.references : Multiset Ref), traded,
      add_comm (value.references : Multiset Ref)]

theorem runs_exchange (values : ∀ type registry value,
      touch (.instance type (some (.wrapper registry (.owned value)))))
    {ref : Ref} {inner : List Nat} {new : HostValue}
    (typed : ∀ content bridged, world.heap.wrapper? ref = some (content, bridged) →
      ∃ type, program.typeAt? (.struct bridged.host) inner = some type ∧
        new.fits program type = true) :
    Runs program touch (exchange ref inner new) world new.references (fun _ => 0)
      fun _ _ => True := by
  refine .assuming fun frame sound => .heap_bind ?_
  cases wrapper : world.heap.wrapper? ref with
  | none => exact runs_discard new
  | some parts =>
    obtain ⟨content, bridged⟩ := parts
    obtain ⟨type, inside, fit⟩ := typed content bridged wrapper
    obtain ⟨value, rootType, owner, _, above⟩ := sound.wired.location wrapper
    have place : program.typeAt? (.struct rootType.host)
        ((Heap.location ref content).2 ++ inner) = some type := by
      rw [Program.typeAt?_append, above, Option.bind_some, inside]
    obtain ⟨old, present, _⟩ := HostValue.at?_of_fits (sound.wired.fits_owned owner) place
    dsimp only
    rw [Heap.ownedValue?_of_wrapper? owner, Option.bind_some, present]
    exact .path_bind (run_change _ _)
      (.single (step_putValue values sound.wired owner present place fit)) fun _ => runs_discard old

/-! ## New wrappers -/

/-- A wrapper is made after a reference to its type has been taken. -/
theorem run_wrap (registry : RegistryId) (type : Ref) (content : Held) :
    (wrap registry type content).run world =
      (.ok (world.retain type).heap.next,
        ((world.retain type).enter registry type content).note .trace
          s!"allocated '{((world.retain type).enter registry type content).heap.typeName
            (world.retain type).heap.next}' instance") := by
  rw [wrap, Operation.run_bind_of_ok (run_retain world type),
    Operation.run_bind_of_ok (run_place _ _), Operation.run_bind_of_ok (run_change _ _)]
  rfl

/-- A wrapper is made of what its type may show, and takes over the references of
that. -/
theorem makes_wrap {registry : RegistryId} {type : Ref} {content : Held} {bridged : BridgedType}
    (used : type.place < world.heap.size) (shape : world.heap.bridgedType? type = some bridged)
    (same : bridged.registry = registry) (sound : content.Sound program world.heap bridged) :
    Makes program touch (wrap registry type content) world content.references (fun ref => [ref])
      fun ref after => after.heap.wrapper? ref = some (content, bridged) := by
  have shows := (World.Extends.retain world type).shows ⟨bridged, shape, same, sound⟩
  have more := (World.Extends.retain world type).trans
    (.enter (world.retain type) registry type content)
  refine ⟨_, _, run_wrap registry type content, ⟨fun held => ?_, ?_⟩, ?_⟩
  · have taken : Path program touch world (held + content.references) (world.retain type)
        (held + content.references + {type}) := .retain used
    have made : Path program touch (world.retain type) (held + content.references + {type})
        ((world.retain type).enter registry type content)
        (held + {(world.retain type).heap.next}) := by
      refine .single (.wrap registry type content held shows ?_ rfl)
      rw [← Multiset.coe_add, add_assoc, Multiset.coe_singleton]
    exact (taken.trans made).trans (path_note _ _)
  · exact more.trans (.note _ _ _)
  · exact Heap.wrapper?_eq_some.mpr
      ⟨_, type, registry, Heap.cell?_push_next _ _, rfl, more.bridgedType? shape⟩

/-- What a wrapper of a copy owns. -/
def copied (value : HostValue) (world : World) : HostValue :=
  (value.completed (world.retainAll value.references)).1

/-- The world in which a value has been adopted. -/
def adopted (value : HostValue) (world : World) : World :=
  (value.completed (world.retainAll value.references)).2

theorem makes_wrapCopy {registry : RegistryId} {type : Ref} {value : HostValue}
    {bridged : BridgedType} (shape : world.heap.bridgedType? type = some bridged)
    (same : bridged.registry = registry)
    (fit : value.fits program (.struct bridged.host) = true)
    (used : ∀ ref ∈ value.references, ref.place < world.heap.size) :
    Makes program touch (wrapCopy registry type value) world [] (fun ref => [ref])
      fun ref after => after.heap.wrapper? ref = some (.owned (copied value world), bridged) := by
  have adopted : Makes program touch (adopt value) world [] HostValue.references
      fun adopted _ => adopted = copied value world :=
    ⟨_, _, rfl, (World.Makes.retainAll used).trans (HostValue.makes_completed value _), rfl⟩
  refine adopted.bind ?_
  rintro _ after made rfl
  refine makes_wrap (made.more.used shape) (made.more.bridgedType? shape) same (.owned ?_)
  rwa [copied, HostValue.fits_completed]

/-- An alias of a field lies one field below the wrapper that it is read from. -/
theorem makes_wrapField {registry : RegistryId} {type anchor : Ref} {content : Held}
    {outer bridged : BridgedType} {index : Nat}
    (wrapper : world.heap.wrapper? anchor = some (content, outer))
    (shape : world.heap.bridgedType? type = some bridged)
    (same : bridged.registry = registry) (registry_eq : outer.registry = registry)
    (declared : program.fieldType? outer.host index = some (.struct bridged.host)) :
    Makes program touch (wrapField registry type anchor content index) world [] (fun ref => [ref])
      fun ref after => after.heap.wrapper? ref = some
        (.alias anchor (Heap.location anchor content).1
          ((Heap.location anchor content).2 ++ [index]), bridged) := by
  obtain ⟨cell, _, _, present, _, _⟩ := Heap.wrapper?_eq_some.mp wrapper
  have more := World.Extends.retain world anchor
  have taken : Makes program touch (retain anchor) world [] (fun ref => [ref])
      fun ref after => ref = anchor ∧ after = world.retain anchor := by
    refine ⟨anchor, _, rfl, ⟨fun held => ?_, more⟩, rfl, rfl⟩
    have path : Path program touch world held (world.retain anchor) (held + {anchor}) :=
      .retain (Heap.place_lt_size present)
    rwa [Multiset.coe_nil, add_zero, Multiset.coe_singleton]
  refine taken.bind ?_
  rintro _ _ _ ⟨rfl, rfl⟩
  refine makes_wrap (more.used shape) (more.bridgedType? shape) same ?_
  exact .nested (more.wrapper? wrapper) (registry_eq.trans same.symm) rfl declared

end Op

end HostBridge
