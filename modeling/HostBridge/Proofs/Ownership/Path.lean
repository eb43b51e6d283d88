import HostBridge.Proofs.Ownership.Preservation

/-!
# Paths

What every sequence of steps keeps: a sound world is left sound, and no place is
ever given up.  An object that is held all the way, or owned by such an object
that the steps may not change, is there in the end with the contents that it had.
-/

namespace HostBridge

variable {program : Program} {touch : Permission}

/-- The world before anything has happened is sound. -/
theorem World.sound_initial : World.initial.Sound program 0 where
  balanced := by
    intro ref cell present
    have first : Heap.initial.cell? ref = some cell := present
    have pinned : ref.pinned = 1 := if_pos (Heap.place_lt_size first)
    have nothing : World.initial.owed 0 = 0 := rfl
    rw [pinned, nothing]
    obtain ⟨place⟩ := ref
    match place with
    | 0 | 1 | 2 =>
      cases first
      rfl
    | place + 3 =>
      rw [Heap.cell?_eq] at first
      simp [Heap.initial] at first
  within := by
    intro ref member
    have nothing : World.initial.owed 0 = 0 := rfl
    rw [nothing] at member
    simp at member
  wired := by
    refine ⟨?_, ?_, ?_⟩
    · intro ref type registry held reading
      obtain ⟨cell, present, body⟩ := Heap.exists_cell_of_body reading (by simp)
      rcases Heap.body_of_initial present with nothing | ⟨value, nothing⟩ <;>
        simp [nothing] at body
    · intro ref shape reading
      obtain ⟨cell, present, body⟩ := Heap.exists_cell_of_body reading (by simp)
      rcases Heap.body_of_initial present with nothing | ⟨value, nothing⟩ <;>
        simp [nothing] at body
    · intro id host handle registered
      have none : (World.initial.registry id).types = [] := rfl
      rw [none] at registered
      cases registered
  grounded := fun ref first present => ⟨first, present, rfl⟩

/-- A world with the places of another one, and perhaps more. -/
structure World.Grows (before after : World) : Prop where
  places : before.heap.size ≤ after.heap.size
  registries : before.registries.size ≤ after.registries.size
  interpreters : before.interpreters.size ≤ after.interpreters.size

namespace World.Grows

variable {first second third : World}

theorem refl (world : World) : world.Grows world := ⟨le_refl _, le_refl _, le_refl _⟩

theorem trans (front : first.Grows second) (back : second.Grows third) : first.Grows third :=
  ⟨front.places.trans back.places, front.registries.trans back.registries,
    front.interpreters.trans back.interpreters⟩

end World.Grows

/-- Fewer changes are allowed in a step than in another. -/
theorem Step.mono {wider : Permission} {before after : World} {held left : Multiset Ref}
    (step : Step program touch before held after left) (weaker : touch.Within wider) :
    Step program wider before held after left := by
  cases step with
  | settle settles even => exact .settle settles even
  | retain ref used taken => exact .retain ref used taken
  | lower ref there shared given => exact .lower ref there shared given
  | forget ref gone given => exact .forget ref gone given
  | retire ref rest there last given taken => exact .retire ref rest there last given taken
  | place body rest plain given taken => exact .place body rest plain given taken
  | wrap registry type content rest shows given taken =>
    exact .wrap registry type content rest shows given taken
  | rewrite ref body there touched becomes even =>
    exact .rewrite ref body there (weaker.contents _ touched) becomes even
  | enroll handle created shape unknown fresh given =>
    exact .enroll handle created shape unknown fresh given
  | withdraw registry taken => exact .withdraw registry taken
  | scatter registry owners permitted =>
    exact .scatter registry owners (weaker.rosters _ permitted)

namespace Path

variable {first second : World} {given held frame : Multiset Ref}

theorem sound (path : Path program touch first given second held)
    (sound : first.Sound program given) : second.Sound program held := by
  induction path with
  | refl => exact sound
  | step _ last ih => exact last.sound (ih sound)

theorem grows (path : Path program touch first given second held) : first.Grows second := by
  induction path with
  | refl => exact .refl _
  | step _ last ih =>
    have evolves := last.evolves
    exact ih.trans ⟨evolves.places, evolves.registries, evolves.interpreters⟩

/-- Fewer changes are allowed along a path than along another. -/
theorem mono {wider : Permission} (path : Path program touch first given second held)
    (weaker : touch.Within wider) :
    Path program wider first given second held := by
  induction path with
  | refl => exact .refl _ _
  | step _ last ih => exact .step ih (last.mono weaker)

end Path

/-! ## What objects remain for as long as they are there -/

/-- What an object goes on being.  A wrapper goes on showing its place, a slot goes
on leading to what it leads to, and what cannot be changed stays as it is. -/
def Body.Persists : Body → Body → Prop
  | .list _, later => ∃ items, later = .list items
  | .dict _, later => ∃ table, later = .dict table
  | .module contents, later => ∃ contents', later = .module contents' ∧
      contents.Continues contents'
  | .capsule name (.adHoc registry slot), later =>
    ∃ slot', later = .capsule name (.adHoc registry slot') ∧ slot.Continues slot'
  | .instance owner (some (.wrapper registry content)), later =>
    ∃ content', later = .instance owner (some (.wrapper registry content')) ∧
      ∀ ref, Heap.location ref content' = Heap.location ref content
  | .instance owner Option.none, later => ∃ state, later = .instance owner state
  | body, later => later = body

namespace Body.Persists

theorem refl (body : Body) : body.Persists body := by
  unfold Body.Persists
  split
  · exact ⟨_, rfl⟩
  · exact ⟨_, rfl⟩
  · exact ⟨_, rfl, .refl _⟩
  · exact ⟨_, rfl, .refl _⟩
  · exact ⟨_, rfl, fun _ => rfl⟩
  · exact ⟨_, rfl⟩
  · rfl

/-- What persists may change once more. -/
theorem then_becomes {heap : Heap} {first second third : Body} (front : first.Persists second)
    (becomes : second.Becomes program heap third) : first.Persists third := by
  unfold Body.Persists at front ⊢
  split at front
  · obtain ⟨_, rfl⟩ := front
    cases becomes
    exact ⟨_, rfl⟩
  · obtain ⟨_, rfl⟩ := front
    cases becomes
    exact ⟨_, rfl⟩
  · obtain ⟨_, rfl, continues⟩ := front
    cases becomes with
    | module continues' => exact ⟨_, rfl, continues.trans continues'⟩
  · obtain ⟨_, rfl, continues⟩ := front
    cases becomes with
    | capsule _ _ continues' => exact ⟨_, rfl, continues.trans continues'⟩
  · obtain ⟨content, rfl, same⟩ := front
    cases becomes with
    | value => exact ⟨_, rfl, same⟩
  · obtain ⟨state, rfl⟩ := front
    cases becomes <;> exact ⟨_, rfl⟩
  · -- nothing else can be changed
    subst front
    cases becomes <;> simp_all

theorem type {shape : TypeBody} {later : Body} (persists : (Body.type shape).Persists later) :
    later = .type shape := by
  simpa [Body.Persists] using persists

theorem function {definition : MethodDef} {owner : Owner} {later : Body}
    (persists : (Body.function definition owner).Persists later) :
    later = .function definition owner := by
  simpa [Body.Persists] using persists

end Body.Persists

/-- An object either has gone away for good or persists. -/
theorem Path.persists {first second : World} {given held : Multiset Ref}
    (path : Path program touch first given second held) {ref : Ref} {cell : Cell}
    (present : first.heap.cell? ref = some cell) {later : Cell}
    (found : second.heap.cell? ref = some later) : cell.body.Persists later.body := by
  have used := Heap.place_lt_size present
  induction path generalizing later with
  | refl =>
    rw [present, Option.some.injEq] at found
    rw [found]
    exact .refl _
  | @step middle _ _ _ _ path last ih =>
    have evolves := last.evolves
    cases there : middle.heap.cell? ref with
    | none =>
      obtain ⟨new, _⟩ := evolves.fresh ref later found there
      have place : ref.place = middle.heap.size := congrArg Ref.place new
      have grown := path.grows.places
      omega
    | some between =>
      have front := ih there
      rcases evolves.kept ref between there with ⟨later', found', same | ⟨_, becomes⟩⟩ | ⟨gone, _⟩
      · rw [found, Option.some.injEq] at found'
        subst found'
        rwa [same]
      · rw [found, Option.some.injEq] at found'
        subst found'
        exact front.then_becomes becomes
      · rw [found] at gone
        cases gone

/-- A wrapper goes on being one of its type, and showing its place. -/
theorem Path.same_wrapper {first second : World} {given held : Multiset Ref}
    (path : Path program touch first given second held) {ref : Ref} {content content' : Held}
    {bridged bridged' : BridgedType}
    (wrapper : first.heap.wrapper? ref = some (content, bridged))
    (wrapper' : second.heap.wrapper? ref = some (content', bridged')) :
    bridged' = bridged ∧ Heap.location ref content' = Heap.location ref content := by
  obtain ⟨cell, type, registry, present, body, shape⟩ := Heap.wrapper?_eq_some.mp wrapper
  obtain ⟨later, type', registry', found, body', shape'⟩ := Heap.wrapper?_eq_some.mp wrapper'
  have persists := path.persists present found
  rw [body] at persists
  obtain ⟨kept, same, location⟩ := persists
  rw [body', Body.instance.injEq, Option.some.injEq, Payload.wrapper.injEq] at same
  obtain ⟨rfl, _, rfl⟩ := same
  obtain ⟨typeCell, contents, typePresent, typeBody, context⟩ := Heap.bridgedType?_eq_some.mp shape
  obtain ⟨typeLater, contents', typeFound, typeBody', context'⟩ :=
    Heap.bridgedType?_eq_some.mp shape'
  have typePersists := path.persists typePresent typeFound
  rw [typeBody] at typePersists
  have kept := typePersists.type
  rw [typeBody', Body.type.injEq] at kept
  subst kept
  rw [context, Option.some.injEq, Payload.bridged.injEq] at context'
  exact ⟨context'.symm, location ref⟩

/-! ## What stays as it is -/

/-- Objects, each of which is held by others than the code that takes the steps
or owned by another one of them, and which the steps may not change. -/
def World.Stable (world : World) (touch : Permission) (frame : Multiset Ref)
    (among : Ref → Prop) : Prop :=
  ∀ ref, among ref → ∃ cell, world.heap.cell? ref = some cell ∧ ¬touch cell.body ∧
    (ref ∈ frame ∨ 0 < ref.pinned ∨
      ∃ outer outerCell, among outer ∧ world.heap.cell? outer = some outerCell ∧
        ref ∈ outerCell.body.references)

/-- The objects of one world that another one has with the same contents. -/
def World.Keeps (before after : World) (among : Ref → Prop) : Prop :=
  ∀ ref, among ref → ∀ cell, before.heap.cell? ref = some cell →
    ∃ later, after.heap.cell? ref = some later ∧ later.body = cell.body

variable {before after : World} {held left frame : Multiset Ref} {among : Ref → Prop}

theorem Step.keeps (step : Step program touch before held after left)
    (balanced : before.Balanced (held + frame)) (stable : before.Stable touch frame among) :
    before.Keeps after among := by
  intro ref member cell present
  obtain ⟨cell', present', untouched, needed⟩ := stable ref member
  rw [present, Option.some.injEq] at present'
  subst present'
  obtain ⟨later, found, kept | ⟨touched, _⟩⟩ := step.survives frame balanced present <| by
    rcases needed with framed | pinned | ⟨outer, outerCell, _, outerPresent, owned⟩
    · exact .inl (by simp [framed])
    · exact .inr pinned
    · exact .inl (by simp [Heap.mem_owned outerPresent owned])
  · exact ⟨later, found, kept⟩
  · exact absurd touched untouched

theorem World.Stable.keeps (stable : before.Stable touch frame among)
    (keeps : before.Keeps after among) : after.Stable touch frame among := by
  intro ref member
  obtain ⟨cell, present, untouched, needed⟩ := stable ref member
  obtain ⟨later, found, body⟩ := keeps ref member cell present
  refine ⟨later, found, by rwa [body], needed.imp_right (Or.imp_right ?_)⟩
  rintro ⟨outer, outerCell, outerMember, outerPresent, owned⟩
  obtain ⟨outerLater, outerFound, outerBody⟩ := keeps outer outerMember outerCell outerPresent
  exact ⟨outer, outerLater, outerMember, outerFound, by rwa [outerBody]⟩

namespace Path

/-- Stable objects are there in the end as they were. -/
theorem keeps (path : Path program touch before held after left)
    (sound : before.Sound program (held + frame)) (stable : before.Stable touch frame among) :
    before.Keeps after among := by
  suffices both : before.Keeps after among ∧ after.Stable touch frame among from both.1
  induction path with
  | refl => exact ⟨fun _ _ cell present => ⟨cell, present, rfl⟩, stable⟩
  | step path last ih =>
    obtain ⟨keeps, still⟩ := ih sound
    have balanced := ((path.frame frame).sound sound).balanced
    have step := last.keeps balanced still
    refine ⟨?_, still.keeps step⟩
    intro ref member cell present
    obtain ⟨middle, found, same⟩ := keeps ref member cell present
    obtain ⟨later, found', same'⟩ := step ref member middle found
    exact ⟨later, found', same'.trans same⟩

/-- A bridged type that others hold stays what it is. -/
theorem keeps_type (path : Path program touch before held after left)
    (sound : before.Sound program (held + frame)) {ref : Ref} {bridged : BridgedType}
    (shape : before.heap.bridgedType? ref = some bridged) (framed : ref ∈ frame) :
    after.heap.bridgedType? ref = some bridged := by
  induction path with
  | refl => exact shape
  | step path last ih =>
    have balanced := ((path.frame frame).sound sound).balanced
    exact last.keeps_type frame balanced (ih sound) (by simp [framed])

/-- A wrapper that others hold stays one of its type and at its place. -/
theorem keeps_wrapper (path : Path program touch before held after left)
    (sound : before.Sound program (held + frame)) {ref : Ref} {content : Held}
    {bridged : BridgedType} (wrapper : before.heap.wrapper? ref = some (content, bridged))
    (framed : ref ∈ frame) :
    ∃ later, after.heap.wrapper? ref = some (later, bridged) ∧
      Heap.location ref later = Heap.location ref content := by
  induction path with
  | refl => exact ⟨content, wrapper, rfl⟩
  | step path last ih =>
    obtain ⟨middle, found, same⟩ := ih sound
    have balanced := ((path.frame frame).sound sound).balanced
    obtain ⟨later, found', same'⟩ := last.keeps_wrapper frame balanced found (by simp [framed])
    exact ⟨later, found', same'.trans same⟩

end Path

end HostBridge
