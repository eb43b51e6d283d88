import HostBridge.Proofs.Ownership.Path

/-!
# Taking and giving up references

The changes of the world that operations are built from are paths.  Giving up
references is the only one that is a recursion of its own: an object that loses
its last reference gives up those that it owned.
-/

namespace HostBridge

variable {program : Program} {touch : Permission} {world : World} {held rest : Multiset Ref}

theorem Tally.coe_cons (ref : Ref) (refs : List Ref) :
    ((ref :: refs : List Ref) : Multiset Ref) = {ref} + refs := by
  rw [← Multiset.cons_coe, Multiset.singleton_add]

namespace World

theorem releaseAll_of_gone {ref : Ref} (refs : List Ref) (gone : world.heap.cell? ref = none) :
    world.releaseAll (ref :: refs) = world.releaseAll refs := by
  rw [releaseAll]
  split
  · rfl
  · simp_all

theorem releaseAll_of_last {ref : Ref} {cell : Cell} (refs : List Ref)
    (there : world.heap.cell? ref = some cell) (last : cell.count ≤ 1) :
    world.releaseAll (ref :: refs) =
      (world.retire ref cell.body).releaseAll (cell.body.references ++ refs) := by
  rw [releaseAll]
  split
  · simp_all
  · rename_i found
    rw [there, Option.some.injEq] at found
    subst found
    rw [if_pos last]

theorem releaseAll_of_shared {ref : Ref} {cell : Cell} (refs : List Ref)
    (there : world.heap.cell? ref = some cell) (shared : 1 < cell.count) :
    world.releaseAll (ref :: refs) =
      World.releaseAll
        { world with heap := world.heap.put ref (some { cell with count := cell.count - 1 }) }
        refs := by
  rw [releaseAll]
  split
  · simp_all
  · rename_i found
    rw [there, Option.some.injEq] at found
    subst found
    rw [if_neg (Nat.not_le.mpr shared)]

/-- What has gone away does not come back by a release. -/
theorem gone_releaseAll {ref : Ref} (refs : List Ref) (gone : world.heap.cell? ref = none) :
    (world.releaseAll refs).heap.cell? ref = none := by
  have put : ∀ {world : World} {other : Ref} {cell : Cell} (new : Option Cell),
      world.heap.cell? other = some cell → world.heap.cell? ref = none →
        (world.heap.put other new).cell? ref = none := by
    intro world other cell new present gone
    rw [Heap.cell?_put_other, gone]
    rintro rfl
    rw [present] at gone
    cases gone
  induction world, refs using releaseAll.induct with
  | case1 world => rwa [releaseAll_nil]
  | case2 world other rest absent ih =>
    rw [releaseAll_of_gone rest absent]
    exact ih gone
  | case3 world other rest cell present last ih =>
    rw [releaseAll_of_last rest present last]
    exact ih (by rw [heap_retire, put none present gone])
  | case4 world other rest cell present shared ih =>
    rw [releaseAll_of_shared rest present (Nat.lt_of_not_le shared)]
    exact ih (put _ present gone)

/-! ### What goes unnoticed

Much of a world is the same whatever is counted or goes away.  Such a part is found to be the same
after one step, and then it is so after any number of them. -/

section

variable {α β : Type} (observe : World → β)

/-- What no step changes is not changed by all of them. -/
theorem observe_foldl {step : World → α → World}
    (each : ∀ world item, observe (step world item) = observe world) (items : List α)
    (world : World) : observe (items.foldl step world) = observe world :=
  List.foldlRecOn items step (motive := fun later => observe later = observe world) rfl
    fun later same item _ => (each later item).trans same

/-- What one more reference does not change is not changed by many of them. -/
theorem observe_retainAll (each : ∀ world ref, observe (retain world ref) = observe world)
    (world : World) (refs : List Ref) : observe (world.retainAll refs) = observe world :=
  observe_foldl observe each refs world

/-- What neither a lower count changes nor an object that goes away is not changed when references
are given up. -/
theorem observe_releaseAll
    (lowered : ∀ (world : World) (ref : Ref) (cell : Cell),
      observe { world with heap := world.heap.put ref (some cell) } = observe world)
    (retired : ∀ (world : World) (ref : Ref) (body : Body),
      observe (world.retire ref body) = observe world)
    (world : World) (refs : List Ref) : observe (world.releaseAll refs) = observe world := by
  induction world, refs using releaseAll.induct with
  | case1 world => rw [releaseAll_nil]
  | case2 world ref rest gone ih => rw [releaseAll_of_gone rest gone, ih]
  | case3 world ref rest cell present last ih =>
    rw [releaseAll_of_last rest present last, ih, retired]
  | case4 world ref rest cell present shared ih =>
    rw [releaseAll_of_shared rest present (Nat.lt_of_not_le shared), ih, lowered]

end

theorem size_retainAll (world : World) (refs : List Ref) :
    (world.retainAll refs).heap.size = world.heap.size :=
  observe_retainAll (fun world => world.heap.size) (fun _ _ => Heap.size_retain _ _) world refs

/-- Registries and interpreters own as much after a release as before. -/
theorem claims_releaseAll (world : World) (refs : List Ref) :
    (world.releaseAll refs).claims = world.claims :=
  observe_releaseAll claims (fun _ _ _ => rfl) (fun world ref body => (world.retire_spec ref body).2.1)
    world refs

/-- References are given up one after the other, each in one of three ways: its object has gone
away already, is held otherwise, or goes away and leaves the references that it owned. -/
theorem releaseAll_along (along : World → Multiset Ref → World → Multiset Ref → Prop)
    (refl : ∀ world held, along world held world held)
    (trans : ∀ {first second third : World} {given held left : Multiset Ref},
      along first given second held → along second held third left → along first given third left)
    (forget : ∀ {world : World} {held : Multiset Ref} (ref : Ref),
      world.heap.cell? ref = none → along world (held + {ref}) world held)
    (lower : ∀ {world : World} {held : Multiset Ref} (ref : Ref) {cell : Cell},
      world.heap.cell? ref = some cell → 1 < cell.count → along world (held + {ref})
        { world with heap := world.heap.put ref (some { cell with count := cell.count - 1 }) } held)
    (retire : ∀ {world : World} {held : Multiset Ref} (ref : Ref) {cell : Cell},
      world.heap.cell? ref = some cell → cell.count ≤ 1 →
        along world (held + {ref}) (world.retire ref cell.body) (held + cell.body.references))
    (world : World) (refs : List Ref) (held : Multiset Ref) :
    along world (held + refs) (world.releaseAll refs) held := by
  induction world, refs using World.releaseAll.induct generalizing held with
  | case1 world =>
    rw [World.releaseAll, Multiset.coe_nil, add_zero]
    exact refl _ _
  | case2 world ref refs gone ih =>
    rw [releaseAll_of_gone refs gone, Tally.coe_cons, ← add_assoc, add_right_comm]
    exact trans (forget ref gone) (ih held)
  | case3 world ref refs cell there last ih =>
    rw [releaseAll_of_last refs there last, Tally.coe_cons, ← add_assoc, add_right_comm]
    refine trans (retire ref there last) ?_
    rw [add_assoc, add_comm (refs : Multiset Ref), Multiset.coe_add]
    exact ih held
  | case4 world ref refs cell there many ih =>
    have shared : 1 < cell.count := Nat.lt_of_not_le many
    rw [releaseAll_of_shared refs there shared, Tally.coe_cons, ← add_assoc, add_right_comm]
    exact trans (lower ref there shared) (ih held)

end World

namespace Path

theorem retain {ref : Ref} (used : ref.place < world.heap.size) :
    Path program touch world held (world.retain ref) (held + {ref}) :=
  .single (.retain ref used rfl)

theorem retainAll {refs : List Ref} (used : ∀ ref ∈ refs, ref.place < world.heap.size) :
    Path program touch world held (world.retainAll refs) (held + refs) := by
  induction refs generalizing world held with
  | nil =>
    rw [Multiset.coe_nil, add_zero]
    exact .refl _ _
  | cons ref refs ih =>
    have first : Path program touch world held (world.retain ref) (held + {ref}) :=
      retain (used ref (by simp))
    have later : Path program touch (world.retain ref) (held + {ref})
        ((world.retain ref).retainAll refs) (held + {ref} + refs) := by
      refine ih fun other member => ?_
      simpa [World.retain] using used other (by simp [member])
    rw [Tally.coe_cons, ← add_assoc]
    exact first.trans later

/-- Giving up references, with all that goes away with the last ones. -/
theorem releaseAll (world : World) (refs : List Ref) (held : Multiset Ref) :
    Path program touch world (held + refs) (world.releaseAll refs) held :=
  World.releaseAll_along (Path program touch) .refl .trans
    (fun ref gone => single (.forget ref gone rfl))
    (fun ref _ there shared => single (.lower ref there shared rfl))
    (fun ref _ there last => single (.retire ref _ there last rfl rfl)) world refs held

theorem release (world : World) (ref : Ref) (held : Multiset Ref) :
    Path program touch world (held + {ref}) (world.release ref) held :=
  releaseAll world [ref] held

/-- Making an object that takes over what it is made of. -/
theorem place {body : Body} (plain : body.Plain program) :
    Path program touch world (held + body.references) (world.place body).2
      (held + {world.heap.next}) :=
  .single (.place body held plain rfl rfl)

theorem heap_retainAll (world : World) (refs : List Ref) :
    (world.retainAll refs).heap.next = world.heap.next :=
  congrArg Ref.mk (world.size_retainAll refs)

/-- Making an object that takes references of its own. -/
theorem create {body : Body} (plain : body.Plain program)
    (used : ∀ ref ∈ body.references, ref.place < world.heap.size) :
    Path program touch world held (world.create body).2 (held + {(world.create body).1}) := by
  have made : Path program touch (world.retainAll body.references) (held + body.references)
      (world.create body).2 (held + {(world.create body).1}) := place plain
  exact (retainAll used).trans made

end Path

/-! ## Changing contents -/

namespace World

/-- Taking references changes no contents. -/
theorem body_cell?_retainAll (world : World) (refs : List Ref) (other : Ref) :
    ((world.retainAll refs).heap.cell? other).map (·.body) =
      (world.heap.cell? other).map (·.body) := by
  induction refs generalizing world with
  | nil => rfl
  | cons ref refs ih =>
    show (((world.retain ref).retainAll refs).heap.cell? other).map _ = _
    rw [ih]
    exact Heap.body_cell?_retain world.heap ref other

end World

namespace Heap

variable {heap other : Heap}

/-- What objects are read as depends on their contents only. -/
theorem body_congr {ref : Ref}
    (same : (heap.cell? ref).map (·.body) = (other.cell? ref).map (·.body)) :
    heap.body ref = other.body ref := by
  unfold body
  cases mine : heap.cell? ref <;> cases its : other.cell? ref <;> simp_all

theorem bridgedType?_congr {ref : Ref} (same : heap.body ref = other.body ref) :
    heap.bridgedType? ref = other.bridgedType? ref := by
  simp only [bridgedType?, typeContext?, type?, same]

end Heap

theorem Body.Becomes.congr {heap other : Heap} {old new : Body}
    (becomes : old.Becomes program heap new)
    (same : ∀ type, other.bridgedType? type = heap.bridgedType? type) :
    old.Becomes program other new := by
  cases becomes with
  | list => exact .list _ _
  | dict => exact .dict _ _
  | module continues => exact .module continues
  | capsule _ _ continues => exact .capsule _ _ continues
  | state type foreign => exact .state type foreign
  | value shape fit => exact .value ((same _).trans shape) fit

/-- Contents are changed after what the new ones are made of has been taken. -/
theorem Step.replace {ref : Ref} {cell : Cell} {body : Body}
    (there : world.heap.cell? ref = some cell) (touched : touch cell.body)
    (becomes : cell.body.Becomes program world.heap body) (held : Multiset Ref) :
    Step program touch (world.retainAll body.references) (held + body.references)
      { world.retainAll body.references with
        heap := (world.retainAll body.references).heap.setBody ref body }
      (held + cell.body.references) := by
  have contents := world.body_cell?_retainAll body.references ref
  rw [there] at contents
  obtain ⟨later, found, same⟩ := Option.map_eq_some_iff.mp contents
  have becomes' : later.body.Becomes program (world.retainAll body.references).heap body := by
    rw [same]
    exact becomes.congr fun type =>
      Heap.bridgedType?_congr (Heap.body_congr (world.body_cell?_retainAll _ type))
  exact .rewrite ref body found (by rwa [same]) becomes' (by rw [same]; abel)

/-- What the old contents were made of is given up after they have been changed. -/
theorem World.replace_eq {ref : Ref} {cell : Cell} (body : Body)
    (there : world.heap.cell? ref = some cell) :
    world.replace ref body =
      World.releaseAll { world.retainAll body.references with
        heap := (world.retainAll body.references).heap.setBody ref body } cell.body.references := by
  rw [World.replace, Heap.body_eq there]

/-- Changing the contents of an object that is there, what it owned being given up. -/
theorem Path.replace {ref : Ref} {cell : Cell} {body : Body}
    (there : world.heap.cell? ref = some cell) (touched : touch cell.body)
    (becomes : cell.body.Becomes program world.heap body)
    (used : ∀ inner ∈ body.references, inner.place < world.heap.size) :
    Path program touch world held (world.replace ref body) held := by
  have taken : Path program touch world held (world.retainAll body.references)
      (held + body.references) := retainAll used
  rw [World.replace_eq body there]
  exact (taken.step (.replace there touched becomes held)).trans (releaseAll _ _ held)

end HostBridge
