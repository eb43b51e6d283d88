import HostBridge.Proofs.Ownership.Adoption
import HostBridge.Proofs.Ownership.Path

/-!
# Courses

A path says which contents may be changed, whatever object has them.  A course says which objects
are left alone: none of its steps changes them, though they may go away, unless somebody else holds
on to them.
-/

namespace HostBridge

variable {program : Program} {touch : Permission}

/-! ## Objects along a path -/

/-- An object that has a place and is there in the end has been there all along. -/
theorem Path.present {first second : World} {given held : Multiset Ref}
    (path : Path program touch first given second held) {ref : Ref} {later : Cell}
    (used : ref.place < first.heap.size) (found : second.heap.cell? ref = some later) :
    ∃ cell, first.heap.cell? ref = some cell := by
  induction path generalizing later with
  | refl => exact ⟨later, found⟩
  | @step middle _ _ _ _ path last ih =>
    cases there : middle.heap.cell? ref with
    | some between => exact ih there
    | none =>
      obtain ⟨new, _⟩ := last.evolves.fresh ref later found there
      have place : ref.place = middle.heap.size := congrArg Ref.place new
      have grown := path.grows.places
      omega

/-- An object that has gone away does not come back. -/
theorem Path.stays_gone {first second : World} {given held : Multiset Ref}
    (path : Path program touch first given second held) {ref : Ref}
    (used : ref.place < first.heap.size) (absent : first.heap.cell? ref = none) :
    second.heap.cell? ref = none := by
  by_contra back
  obtain ⟨later, found⟩ := Option.ne_none_iff_exists'.mp back
  obtain ⟨cell, present⟩ := path.present used found
  rw [absent] at present
  cases present

/-- An object that must not be changed either is gone or as it was. -/
theorem Path.same_body {first second : World} {given held : Multiset Ref}
    (path : Path program touch first given second held) {ref : Ref} {cell later : Cell}
    (present : first.heap.cell? ref = some cell) (untouched : ¬touch cell.body)
    (found : second.heap.cell? ref = some later) : later.body = cell.body := by
  induction path generalizing later with
  | refl =>
    rw [present, Option.some.injEq] at found
    rw [found]
  | step path last ih =>
    obtain ⟨between, there⟩ := (Path.single last).present
      (Nat.lt_of_lt_of_le (Heap.place_lt_size present) path.grows.places) found
    have same := ih there
    rcases last.evolves.kept ref between there with ⟨_, found', kept | ⟨touched, _⟩⟩ | ⟨gone, _⟩
    · rw [found, Option.some.injEq] at found'
      subst found'
      exact kept.trans same
    · rw [same] at touched
      exact absurd touched untouched
    · rw [found] at gone
      cases gone

/-- An object that others hold does not go away. -/
theorem Path.keeps_cell {first second : World} {given held frame : Multiset Ref}
    (path : Path program touch first given second held)
    (sound : first.Sound program (given + frame)) {ref : Ref} {cell : Cell}
    (present : first.heap.cell? ref = some cell) (framed : ref ∈ frame) :
    ∃ later, second.heap.cell? ref = some later := by
  induction path with
  | refl => exact ⟨cell, present⟩
  | step path last ih =>
    obtain ⟨between, there⟩ := ih sound
    have balanced := ((path.frame frame).sound sound).balanced
    obtain ⟨later, found, _⟩ := last.survives frame balanced there (.inl (by simp [framed]))
    exact ⟨later, found⟩

/-- An object that others hold, and that must not be changed, stays as it is. -/
theorem Path.keeps_object {first second : World} {given held frame : Multiset Ref}
    (path : Path program touch first given second held)
    (sound : first.Sound program (given + frame)) {ref : Ref} {body : Body}
    (reading : first.heap.body ref = body) (something : body ≠ .none) (untouched : ¬touch body)
    (framed : ref ∈ frame) : second.heap.body ref = body := by
  obtain ⟨cell, present, same⟩ := Heap.exists_cell_of_body reading something
  have stable : first.Stable touch frame (· = ref) := by
    rintro _ rfl
    exact ⟨cell, present, by rwa [same], .inl framed⟩
  obtain ⟨later, found, kept⟩ := path.keeps sound stable ref rfl cell present
  rw [Heap.body_eq found, kept, same]

/-! ## Courses -/

/-- Two worlds in which some objects have the same contents, as far as both worlds have them. -/
def World.Spares (before after : World) (spared : Ref → Prop) : Prop :=
  ∀ ref, spared ref → ∀ cell later, before.heap.cell? ref = some cell →
    after.heap.cell? ref = some later → later.body = cell.body

/-- A sequence of steps that change none of some objects. -/
inductive Course (program : Program) (spared : Ref → Prop) :
    World → Multiset Ref → World → Multiset Ref → Prop
  | refl (world : World) (held : Multiset Ref) : Course program spared world held world held
  | step {first second third : World} {given held left : Multiset Ref}
      (course : Course program spared first given second held)
      (last : Step program Permission.anything second held third left)
      (spares : second.Spares third spared) : Course program spared first given third left

namespace Course

variable {first second third : World} {given held left : Multiset Ref} {spared : Ref → Prop}

theorem path (course : Course program spared first given second held) :
    Path program Permission.anything first given second held := by
  induction course with
  | refl => exact .refl _ _
  | step _ last _ ih => exact .step ih last

theorem trans (front : Course program spared first given second held)
    (back : Course program spared second held third left) :
    Course program spared first given third left := by
  induction back with
  | refl => exact front
  | step _ last spares ih => exact .step (ih front) last spares

theorem single (step : Step program Permission.anything first given second held)
    (spares : first.Spares second spared) : Course program spared first given second held :=
  .step (.refl first given) step spares

/-- What other code holds takes no part in a course. -/
theorem frame (course : Course program spared first given second held) (frame : Multiset Ref) :
    Course program spared first (given + frame) second (held + frame) := by
  induction course with
  | refl => exact .refl _ _
  | step _ last spares ih => exact .step ih (last.frame frame) spares

/-- Steps that may not change the contents of some objects leave them alone. -/
theorem of_path (path : Path program touch first given second held)
    (used : ∀ ref, spared ref → ref.place < first.heap.size)
    (untouched : ∀ ref, spared ref → ∀ cell, first.heap.cell? ref = some cell → ¬touch cell.body) :
    Course program spared first given second held := by
  induction path with
  | refl => exact .refl _ _
  | @step middle _ _ _ _ path last ih =>
    refine .step ih (last.mono touch.within_anything) ?_
    intro ref member cell later there found
    obtain ⟨start, present⟩ := path.present (used ref member) there
    have body := path.same_body present (untouched ref member start present) there
    refine (Path.single last).same_body there ?_ found
    rw [body]
    exact untouched ref member start present

/-- Steps that may change nothing leave everything alone. -/
theorem of_still (path : Path program Permission.nothing first given second held) :
    Course program spared first given second held := by
  induction path with
  | refl => exact .refl _ _
  | step _ last ih =>
    exact .step ih (last.mono Permission.nothing.within_anything)
      fun _ _ _ _ there found => (Path.single last).same_body there id found

/-- Fewer objects are left alone than others. -/
theorem sparing {fewer : Ref → Prop} (course : Course program spared first given second held)
    (within : ∀ ref, fewer ref → spared ref) : Course program fewer first given second held := by
  induction course with
  | refl => exact .refl _ _
  | step _ last spares ih =>
    exact .step ih last fun ref member => spares ref (within ref member)

/-- A spared object either is gone or as it was. -/
theorem spares (course : Course program spared first given second held)
    (used : ∀ ref, spared ref → ref.place < first.heap.size) : first.Spares second spared := by
  induction course with
  | refl =>
    intro ref _ cell later present found
    rw [present, Option.some.injEq] at found
    rw [found]
  | step course last spares ih =>
    intro ref member cell later present found
    obtain ⟨between, there⟩ := (Path.single last).present
      (Nat.lt_of_lt_of_le (used ref member) course.path.grows.places) found
    exact (spares ref member between later there found).trans
      (ih ref member cell between present there)

/-- Spared objects that others hold, or that are owned by such objects, are there in the end as
they were. -/
theorem keeps {frame : Multiset Ref} {among : Ref → Prop}
    (course : Course program spared first given second held)
    (sound : first.Sound program (given + frame))
    (stable : first.Stable Permission.nothing frame among)
    (within : ∀ ref, among ref → spared ref) :
    first.Keeps second among ∧ second.Stable Permission.nothing frame among := by
  induction course with
  | refl => exact ⟨fun _ _ cell present => ⟨cell, present, rfl⟩, stable⟩
  | @step middle third _ _ _ course last spares ih =>
    obtain ⟨keeps, still⟩ := ih sound
    have balanced := ((course.path.frame frame).sound sound).balanced
    have step : middle.Keeps third among := by
      intro ref member cell present
      obtain ⟨cell', present', _, needed⟩ := still ref member
      obtain ⟨later, found, _⟩ := last.survives frame balanced present <| by
        rcases needed with framed | pinned | ⟨outer, outerCell, _, outerPresent, owned⟩
        · exact .inl (by simp [framed])
        · exact .inr pinned
        · exact .inl (by simp [Heap.mem_owned outerPresent owned])
      exact ⟨later, found, spares ref (within ref member) cell later present found⟩
    refine ⟨fun ref member cell present => ?_, still.keeps step⟩
    obtain ⟨between, there, same⟩ := keeps ref member cell present
    obtain ⟨later, found, same'⟩ := step ref member between there
    exact ⟨later, found, same'.trans same⟩

end Course

/-- An object that is given new contents is the only one that is changed. -/
theorem World.spares_setBody {world : World} {target : Ref} {cell : Cell}
    (there : world.heap.cell? target = some cell) (body : Body) :
    world.Spares { world with heap := world.heap.setBody target body } (· ≠ target) := by
  intro ref other before after present found
  rw [Heap.setBody_of_cell body there, Heap.cell?_put _ there, if_neg other, present,
    Option.some.injEq] at found
  rw [found]

namespace Course

variable {world : World} {held : Multiset Ref}

/-- Changing the contents of an object leaves all others alone. -/
theorem replace {ref : Ref} {cell : Cell} {body : Body}
    (there : world.heap.cell? ref = some cell)
    (becomes : cell.body.Becomes program world.heap body)
    (used : ∀ inner ∈ body.references, inner.place < world.heap.size) :
    Course program (· ≠ ref) world held (world.replace ref body) held := by
  have contents := world.body_cell?_retainAll body.references ref
  rw [there] at contents
  obtain ⟨later, found, _⟩ := Option.map_eq_some_iff.mp contents
  have taken : Path program Permission.nothing world held (world.retainAll body.references)
      (held + body.references) := .retainAll used
  rw [World.replace_eq body there]
  exact ((of_still taken).step (.replace there trivial becomes held)
    (World.spares_setBody found body)).trans (of_still (.releaseAll _ _ held))

/-- Putting a value at a place of the one that a wrapper owns leaves all other objects alone. -/
theorem putValue (wired : world.Wired program) {root : Ref} {value old new : HostValue}
    {rootType : BridgedType} {path : List Nat} {type : HostType}
    (owner : world.heap.wrapper? root = some (.owned value, rootType))
    (present : value.at? path = some old)
    (typed : program.typeAt? (.struct rootType.host) path = some type)
    (fit : new.fits program type = true) :
    Course program (· ≠ root) world new.references (world.putValue root path new)
      old.references := by
  obtain ⟨cell, shape, registry, there, body, _⟩ := Heap.wrapper?_eq_some.mp owner
  refine .single (Op.step_putValue (fun _ _ _ => trivial) wired owner present typed fit) ?_
  rw [World.putValue_eq there body]
  exact World.spares_setBody there _

end Course

end HostBridge
