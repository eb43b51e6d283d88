import HostBridge.Proofs.Ownership.Step

/-!
# Steps keep the world sound

Counts stay right through every step, since each step changes them as it changes
the owners.  Wrappers stay wired: only an object that nobody owns goes away, so
neither the type of a wrapper nor the wrapper that it was read from does.
-/

namespace HostBridge

variable {program : Program} {touch : Permission}

/-! ## Counts -/

namespace World

variable {before after : World} {held left : Multiset Ref}

/-- Counts stay right where they change as the owners do. -/
theorem Balanced.change (balanced : before.Balanced held)
    (cells : ∀ ref later, after.heap.cell? ref = some later →
      ∃ cell, before.heap.cell? ref = some cell ∧
        later.count + (before.owed held).count ref = cell.count + (after.owed left).count ref) :
    after.Balanced left := by
  intro ref later found
  obtain ⟨cell, present, counts⟩ := cells ref later found
  have counted := balanced ref cell present
  omega

/-- Counts stay right where neither they nor the owners change. -/
theorem Balanced.same (balanced : before.Balanced held)
    (cells : ∀ ref, (after.heap.cell? ref).map (·.count) = (before.heap.cell? ref).map (·.count))
    (owners : after.owed left = before.owed held) : after.Balanced left := by
  refine balanced.change fun ref later found => ?_
  have reading := cells ref
  rw [found, Option.map_some] at reading
  obtain ⟨cell, present, equal⟩ := Option.map_eq_some_iff.mp reading.symm
  exact ⟨cell, present, by rw [owners, equal]⟩

theorem Within.change (within : before.Within held)
    (owners : ∀ ref ∈ after.owed left, ref ∈ before.owed held ∨ ref.place < after.heap.size)
    (places : before.heap.size ≤ after.heap.size) : after.Within left := by
  intro ref member
  rcases owners ref member with old | used
  · exact Nat.lt_of_lt_of_le (within ref old) places
  · exact used

theorem Within.same (within : before.Within held) (owners : after.owed left = before.owed held)
    (places : before.heap.size ≤ after.heap.size) : after.Within left :=
  within.change (fun ref member => .inl (by rwa [owners] at member)) places

/-- A new object is counted once, for the code that made it. -/
theorem Balanced.push (balanced : before.Balanced held) (within : before.Within held)
    {body : Body} (heap : after.heap = before.heap.push body)
    (large : Heap.initial.size ≤ before.heap.size)
    (owners : after.owed left = before.owed held + {before.heap.next}) : after.Balanced left := by
  intro ref later found
  rw [heap, Heap.cell?_push] at found
  rw [owners, Multiset.count_add]
  by_cases new : ref = before.heap.next
  · subst new
    rw [if_pos rfl, Option.some.injEq] at found
    have unused : before.heap.next ∉ before.owed held := fun member =>
      absurd (within _ member) (Nat.lt_irrefl _)
    have loose : before.heap.next.pinned = 0 := if_neg (Nat.not_lt.mpr large)
    simp [← found, Multiset.count_eq_zero_of_notMem unused, loose]
  · rw [if_neg new] at found
    simp [balanced ref later found, new]

theorem Within.push (within : before.Within held) {body : Body}
    (heap : after.heap = before.heap.push body)
    (owners : after.owed left = before.owed held + {before.heap.next}) : after.Within left := by
  have larger : after.heap.size = before.heap.size + 1 := by rw [heap, Heap.size_push]
  refine within.change (fun ref member => ?_) (by omega)
  rw [owners, Multiset.mem_add, Multiset.mem_singleton] at member
  rcases member with old | rfl
  · exact .inl old
  · refine .inr ?_
    rw [larger]
    exact Nat.lt_succ_self _

theorem Grounded.large {world : World} (grounded : world.Grounded) :
    Heap.initial.size ≤ world.heap.size := by
  obtain ⟨cell, present, _⟩ := grounded .true ⟨1, .bool true⟩ rfl
  exact Heap.place_lt_size present

/-- An object that is still owned otherwise is counted more than once. -/
theorem Balanced.one_lt_count {world : World} {held : Multiset Ref} {ref : Ref} {cell : Cell}
    (balanced : world.Balanced held) (rest : Multiset Ref)
    (present : world.heap.cell? ref = some cell)
    (given : held = rest + {ref})
    (owned : ref ∈ world.heap.owned + world.claims + rest ∨ 0 < ref.pinned) : 1 < cell.count := by
  have counted := balanced ref cell present
  rw [owed, given, ← add_assoc, Multiset.count_add, Multiset.count_singleton_self] at counted
  rcases owned with owned | pinned
  · have positive := Multiset.count_pos.mpr owned
    omega
  · omega

end World

namespace Heap

/-- The first objects are nothing and the truth values. -/
theorem body_of_initial {ref : Ref} {cell : Cell} (present : initial.cell? ref = some cell) :
    cell.body = .none ∨ ∃ value, cell.body = .bool value := by
  obtain ⟨place⟩ := ref
  match place with
  | 0 | 1 | 2 =>
    cases present
    simp
  | place + 3 =>
    rw [cell?_eq] at present
    simp [initial] at present

end Heap

namespace Step

variable {before after : World} {held left : Multiset Ref}

/-- Changed contents own what was given away, and what they owned is held. -/
theorem owed_rewrite {world : World} {ref : Ref} {cell : Cell} {body : Body}
    (there : world.heap.cell? ref = some cell)
    (even : left + body.references = held + cell.body.references) :
    World.owed { world with heap := world.heap.setBody ref body } left = world.owed held := by
  have changed := Heap.owned_put (some { cell with body }) there
  rw [← Heap.setBody_of_cell body there, Heap.cellOwned_some] at changed
  refine add_right_cancel (b := (cell.body.references + body.references : Multiset Ref)) ?_
  show (world.heap.setBody ref body).owned + world.claims + left + _ =
    world.heap.owned + world.claims + held + _
  calc (world.heap.setBody ref body).owned + world.claims + left +
        (cell.body.references + body.references)
      = ((world.heap.setBody ref body).owned + cell.body.references) + world.claims +
          (left + body.references) := by abel
    _ = world.heap.owned + world.claims + held + (cell.body.references + body.references) := by
        rw [changed, even]
        abel

/-- What an object that goes away owned is held, and one reference to it is gone. -/
theorem owed_retire {world : World} {rest : Multiset Ref} {ref : Ref} {cell : Cell}
    (there : world.heap.cell? ref = some cell) (given : held = rest + {ref})
    (taken : left = rest + cell.body.references) :
    (world.retire ref cell.body).owed left + {ref} = world.owed held := by
  have removed := Heap.owned_put none there
  rw [Heap.cellOwned_none, add_zero] at removed
  rw [World.owed, World.owed, given, taken, World.heap_retire, (world.retire_spec _ _).2.1,
    ← removed]
  abel

/-- A new object owns what was given away, and is held. -/
theorem owed_push {world after : World} {body : Body} {rest : Multiset Ref}
    (heap : after.heap = world.heap.push body) (claims : after.claims = world.claims)
    (given : held = rest + body.references) (taken : left = rest + {world.heap.next}) :
    after.owed left = world.owed held + {world.heap.next} := by
  rw [World.owed, World.owed, given, taken, heap, claims, Heap.owned_push]
  abel

theorem owed_enroll {world : World} {id : RegistryId} {bridged : BridgedType} {handle : Ref}
    (created : id.number < world.registries.size) (given : held = left + {handle}) :
    (world.updateRegistry id (.enroll handle bridged)).owed left = world.owed held := by
  have changed := World.claims_updateRegistry world (.enroll handle bridged) created
  have added : (world.updateRegistry id (.enroll handle bridged)).claims =
      world.claims + {handle} := by
    refine add_right_cancel (b := ((world.registry id).handles : Multiset Ref)) ?_
    rw [changed]
    simp only [Registry.handles, Registry.enroll, List.map_append, ← Multiset.coe_add]
    simp only [List.map_cons, List.map_nil, Multiset.coe_singleton]
    abel
  rw [World.owed, World.owed, given, added, World.heap_updateRegistry]
  abel

theorem owed_withdraw {world : World} {id : RegistryId}
    (taken : left = held + (world.registry id).handles) :
    (world.updateRegistry id fun entry => { entry with bridged := [], types := [] }).owed left =
      world.owed held := by
  rw [World.owed, World.owed, taken, World.heap_updateRegistry]
  by_cases created : id.number < world.registries.size
  · have changed := World.claims_updateRegistry world
      (fun entry => { entry with bridged := [], types := [] }) created
    simp only [Registry.handles, List.map_nil, Multiset.coe_nil, add_zero] at changed
    simp only [Registry.handles]
    rw [← changed]
    abel
  · rw [World.updateRegistry_of_size_le _ (Nat.le_of_not_lt created)]
    have none : world.registry id = .empty := by
      rw [World.registry, Array.getElem?_eq_none (Nat.le_of_not_lt created)]
      rfl
    simp [none, Registry.handles, Registry.empty]

theorem owed_scatter (world : World) (id : RegistryId) (owners : Nat → Nat)
    (held : Multiset Ref) :
    (world.updateRegistry id (.scattered owners)).owed held = world.owed held := by
  have same : (world.updateRegistry id (.scattered owners)).claims = world.claims :=
    World.claims_updateRegistry_same id fun _ => rfl
  rw [World.owed, World.owed, same, World.heap_updateRegistry]

theorem owed_retain (world : World) (ref : Ref) (held : Multiset Ref) :
    (world.retain ref).owed (held + {ref}) = world.owed held + {ref} := by
  have same : (world.heap.retain ref).owned = world.heap.owned := by
    cases present : world.heap.cell? ref with
    | none => rw [Heap.retain_of_gone present]
    | some cell =>
      rw [Heap.retain_of_cell present]
      exact Heap.owned_put_count _ present
  rw [World.owed, World.owed]
  show (world.heap.retain ref).owned + world.claims + (held + {ref}) = _
  rw [same]
  abel

theorem owed_lower {world : World} {ref : Ref} {cell : Cell} (count : Nat)
    (there : world.heap.cell? ref = some cell) (given : held = left + {ref}) :
    World.owed { world with heap := world.heap.put ref (some { cell with count }) } left + {ref} =
      world.owed held := by
  rw [World.owed, World.owed, given]
  show (world.heap.put ref _).owned + world.claims + left + {ref} = _
  rw [Heap.owned_put_count count there]
  abel

/-- Objects stay counted once for each owner. -/
theorem balanced (step : Step program touch before held after left)
    (balanced : before.Balanced held) (within : before.Within held)
    (grounded : before.Grounded) : after.Balanced left := by
  cases step with
  | settle settles even =>
    refine balanced.same (fun ref => by rw [settles.heap]) ?_
    rw [World.owed, World.owed, settles.heap, add_assoc, even, add_assoc]
  | retain ref used taken =>
    refine balanced.change fun other later found => ?_
    rw [taken, owed_retain, Multiset.count_add]
    change (before.heap.retain ref).cell? other = some later at found
    cases present : before.heap.cell? ref with
    | none =>
      rw [Heap.retain_of_gone present] at found
      have distinct : other ≠ ref := by
        rintro rfl
        rw [present] at found
        cases found
      exact ⟨later, found, by simp [distinct]⟩
    | some cell =>
      rw [Heap.retain_of_cell present, Heap.cell?_put _ present] at found
      by_cases same : other = ref
      · rw [if_pos same, Option.some.injEq] at found
        subst same
        refine ⟨cell, present, ?_⟩
        rw [← found, Multiset.count_singleton_self]
        dsimp only
        omega
      · rw [if_neg same] at found
        exact ⟨later, found, by simp [same]⟩
  | @lower _ _ ref cell there shared given =>
    refine balanced.change fun other later found => ?_
    rw [← owed_lower (cell.count - 1) there given, Multiset.count_add]
    dsimp only at found
    rw [Heap.cell?_put _ there] at found
    by_cases same : other = ref
    · rw [if_pos same, Option.some.injEq] at found
      subst same
      refine ⟨cell, there, ?_⟩
      rw [← found, Multiset.count_singleton_self]
      dsimp only
      omega
    · rw [if_neg same] at found
      exact ⟨later, found, by simp [same]⟩
  | forget ref gone given =>
    refine balanced.change fun other later found => ⟨later, found, ?_⟩
    have distinct : other ≠ ref := by
      rintro rfl
      rw [gone] at found
      cases found
    simp [World.owed, given, distinct]
  | @retire _ _ ref cell rest there last given taken =>
    refine balanced.change fun other later found => ?_
    rw [← owed_retire there given taken, Multiset.count_add]
    rw [World.heap_retire, Heap.cell?_put _ there] at found
    by_cases same : other = ref
    · rw [if_pos same] at found
      cases found
    · rw [if_neg same] at found
      exact ⟨later, found, by simp [same]⟩
  | place body rest plain given taken =>
    exact balanced.push within rfl grounded.large (owed_push rfl rfl given taken)
  | wrap registry type content rest shows given taken =>
    refine balanced.push within rfl grounded.large (owed_push rfl ?_ given taken)
    exact World.claims_updateRegistry_same registry (Registry.types_updateRoster _)
  | @rewrite _ _ ref cell body there touched becomes even =>
    refine balanced.same (fun other => ?_) (owed_rewrite there even)
    dsimp only
    rw [Heap.setBody_of_cell body there, Heap.cell?_put _ there]
    by_cases same : other = ref
    · simp [same, there]
    · simp [same]
  | enroll handle created shape unknown fresh given =>
    exact balanced.same (fun _ => rfl) (owed_enroll created given)
  | withdraw registry taken => exact balanced.same (fun _ => rfl) (owed_withdraw taken)
  | scatter registry owners permitted =>
    exact balanced.same (fun _ => rfl) (owed_scatter before registry owners held)

/-- References stay within the places that have been used. -/
theorem within (step : Step program touch before held after left)
    (within : before.Within held) : after.Within left := by
  cases step with
  | settle settles even =>
    refine within.same ?_ (by rw [settles.heap])
    rw [World.owed, World.owed, settles.heap, add_assoc, even, add_assoc]
  | retain ref used taken =>
    refine within.change (fun other member => ?_) (by simp [World.retain])
    rw [taken, owed_retain, Multiset.mem_add, Multiset.mem_singleton] at member
    rcases member with old | rfl
    · exact .inl old
    · exact .inr (by simpa [World.retain] using used)
  | lower ref there shared given =>
    refine within.change (fun other member => .inl ?_) (by simp)
    rw [← owed_lower _ there given]
    exact Multiset.mem_add.mpr (.inl member)
  | forget ref gone given =>
    refine within.change (fun other member => .inl ?_) (le_refl _)
    rw [World.owed, given, ← add_assoc]
    exact Multiset.mem_add.mpr (.inl member)
  | retire ref rest there last given taken =>
    refine within.change (fun other member => .inl ?_) (by simp)
    rw [← owed_retire there given taken]
    exact Multiset.mem_add.mpr (.inl member)
  | place body rest plain given taken => exact within.push rfl (owed_push rfl rfl given taken)
  | wrap registry type content rest shows given taken =>
    refine within.push rfl (owed_push rfl ?_ given taken)
    exact World.claims_updateRegistry_same registry (Registry.types_updateRoster _)
  | rewrite ref body there touched becomes even =>
    exact within.same (owed_rewrite there even) (by simp)
  | enroll handle created shape unknown fresh given =>
    exact within.same (owed_enroll created given) (le_refl _)
  | withdraw registry taken => exact within.same (owed_withdraw taken) (le_refl _)
  | scatter registry owners permitted =>
    exact within.same (owed_scatter before registry owners held) (le_refl _)

/-! ## What stays -/

/-- What is owned by others than the code that takes the step stays. -/
theorem survives (step : Step program touch before held after left) (frame : Multiset Ref)
    (balanced : before.Balanced (held + frame)) {ref : Ref} {cell : Cell}
    (there : before.heap.cell? ref = some cell)
    (needed : ref ∈ before.heap.owned + after.heap.owned + after.claims + frame ∨
      0 < ref.pinned) :
    ∃ later, after.heap.cell? ref = some later ∧
      (later.body = cell.body ∨
        touch cell.body ∧ cell.body.Becomes program before.heap later.body) := by
  rcases step.evolves.kept ref cell there with stays | ⟨_, last, member, owned, claims⟩
  · exact stays
  · obtain ⟨rest, given⟩ := Multiset.exists_cons_of_mem member
    have shared : 1 < cell.count := by
      refine balanced.one_lt_count (rest + frame) there ?_ ?_
      · rw [given, ← Multiset.singleton_add]
        abel
      · refine needed.imp_left fun among => ?_
        rw [Multiset.mem_add, Multiset.mem_add, Multiset.mem_add, claims] at among
        rcases among with ((owned' | inside) | claimed) | framed
        · simp [owned']
        · simp [Multiset.mem_of_le owned inside]
        · simp [claimed]
        · simp [framed]
    omega

/-- The first objects stay as they are. -/
theorem grounded (step : Step program touch before held after left)
    (balanced : before.Balanced held) (grounded : before.Grounded) : after.Grounded := by
  intro ref first initial
  obtain ⟨cell, there, same⟩ := grounded ref first initial
  have pinned : 0 < ref.pinned := by
    rw [Ref.pinned, if_pos (Heap.place_lt_size initial)]
    exact Nat.one_pos
  obtain ⟨later, found, kept | ⟨_, becomes⟩⟩ := step.survives 0 (by simpa using balanced)
    there (.inr pinned)
  · exact ⟨later, found, kept.trans same⟩
  · rw [same] at becomes
    rcases Heap.body_of_initial initial with nothing | ⟨truth, nothing⟩
    · rw [nothing] at becomes
      cases becomes
    · rw [nothing] at becomes
      cases becomes

/-- A bridged type that is still owned stays what it is. -/
theorem keeps_type (step : Step program touch before held after left) (frame : Multiset Ref)
    (balanced : before.Balanced (held + frame)) {ref : Ref} {bridged : BridgedType}
    (shape : before.heap.bridgedType? ref = some bridged)
    (needed : ref ∈ before.heap.owned + after.heap.owned + after.claims + frame) :
    after.heap.bridgedType? ref = some bridged := by
  obtain ⟨cell, contents, there, body, context⟩ := Heap.bridgedType?_eq_some.mp shape
  obtain ⟨later, found, kept | ⟨_, becomes⟩⟩ := step.survives frame balanced there (.inl needed)
  · exact Heap.bridgedType?_eq_some.mpr ⟨later, contents, found, kept.trans body, context⟩
  · rw [body] at becomes
    cases becomes

/-- A wrapper that is still owned stays one of its type and at its place. -/
theorem keeps_wrapper (step : Step program touch before held after left) (frame : Multiset Ref)
    (balanced : before.Balanced (held + frame)) {ref : Ref} {content : Held}
    {bridged : BridgedType} (wrapper : before.heap.wrapper? ref = some (content, bridged))
    (needed : ref ∈ before.heap.owned + after.heap.owned + after.claims + frame) :
    ∃ later, after.heap.wrapper? ref = some (later, bridged) ∧
      Heap.location ref later = Heap.location ref content := by
  obtain ⟨cell, type, registry, there, body, shape⟩ := Heap.wrapper?_eq_some.mp wrapper
  obtain ⟨later, found, changed⟩ := step.survives frame balanced there (.inl needed)
  have still : ∃ content', later.body = .instance type (some (.wrapper registry content')) ∧
      Heap.location ref content' = Heap.location ref content := by
    rcases changed with kept | ⟨_, becomes⟩
    · exact ⟨content, kept.trans body, rfl⟩
    · rw [body] at becomes
      generalize later.body = new at becomes ⊢
      cases becomes
      exact ⟨_, rfl, rfl⟩
  obtain ⟨content', body', location⟩ := still
  have typed : after.heap.bridgedType? type = some bridged := by
    refine step.keeps_type frame balanced shape ?_
    have among : type ∈ after.heap.owned :=
      Heap.mem_owned found (by simp [body', Body.references])
    simp [among]
  exact ⟨content', Heap.wrapper?_eq_some.mpr ⟨later, type, registry, found, body', typed⟩, location⟩

/-- Contents that a wrapper may have stay such ones. -/
theorem keeps_shows (step : Step program touch before held after left)
    (balanced : before.Balanced held) {registry : RegistryId} {type : Ref} {content : Held}
    (shows : before.heap.Shows program registry type content)
    (needed : ∀ ref ∈ content.references ++ [type], ref ∈ after.heap.owned) :
    after.heap.Shows program registry type content := by
  have framed : before.Balanced (held + 0) := by simpa using balanced
  obtain ⟨bridged, shape, same, sound⟩ := shows
  refine ⟨bridged, step.keeps_type 0 framed shape (by simp [needed type]), same, ?_⟩
  cases sound with
  | owned fit => exact .owned fit
  | @nested anchor root path index outer outerType wrapper registry above declared =>
    obtain ⟨later, found, location⟩ := step.keeps_wrapper 0 framed wrapper
      (by simp [needed anchor (by simp [Held.references])])
    exact .nested found registry (location.trans above) declared

/-- A wrapper after a step had contents before it that it may have. -/
theorem shows_before (step : Step program touch before held after left)
    (wired : before.Wired program) {ref type : Ref} {registry : RegistryId} {content : Held}
    {later : Cell} (found : after.heap.cell? ref = some later)
    (body : later.body = .instance type (some (.wrapper registry content))) :
    before.heap.Shows program registry type content ∧ content.Below ref := by
  cases there : before.heap.cell? ref with
  | none =>
    obtain ⟨rfl, plain | ⟨registry', type', content', same, shows⟩, _⟩ :=
      step.evolves.fresh ref later found there
    · rw [body] at plain
      exact plain.elim
    · rw [body] at same
      cases same
      refine ⟨shows, ?_⟩
      obtain ⟨bridged, _, _, sound⟩ := shows
      cases sound with
      | owned fit => trivial
      | nested wrapper registry above declared =>
        obtain ⟨cell, _, _, present, _⟩ := Heap.wrapper?_eq_some.mp wrapper
        exact Heap.place_lt_size present
  | some cell =>
    rcases step.evolves.kept ref cell there with ⟨same, found', kept | ⟨_, becomes⟩⟩ | ⟨gone, _⟩
    · rw [found, Option.some.injEq] at found'
      subst found'
      exact wired.wrapper ref type registry content
        ((Heap.body_eq there).trans (kept.symm.trans body))
    · rw [found, Option.some.injEq] at found'
      subst found'
      rw [body] at becomes
      have reading := Heap.body_eq there
      generalize cell.body = old at becomes reading
      cases becomes with
      | state type foreign => exact absurd rfl (foreign registry content)
      | value shape fit =>
        obtain ⟨⟨bridged, shape', same, _⟩, _⟩ := wired.wrapper ref type registry _ reading
        rw [shape, Option.some.injEq] at shape'
        subst shape'
        exact ⟨⟨_, shape, same, .owned fit⟩, trivial⟩
    · rw [gone] at found
      cases found

/-- Wrappers stay wired. -/
theorem wired (step : Step program touch before held after left) (balanced : before.Balanced held)
    (wired : before.Wired program) : after.Wired program := by
  have framed : before.Balanced (held + 0) := by simpa using balanced
  refine ⟨?_, ?_, ?_⟩
  · intro ref type registry content reading
    obtain ⟨later, found, body⟩ := Heap.exists_cell_of_body reading (by simp)
    obtain ⟨shows, below⟩ := step.shows_before wired found body
    refine ⟨step.keeps_shows balanced shows fun inner member => ?_, below⟩
    refine Heap.mem_owned found ?_
    simpa [body, Body.references, Payload.references] using member
  · intro ref shape reading
    obtain ⟨later, found, body⟩ := Heap.exists_cell_of_body reading (by simp)
    cases there : before.heap.cell? ref with
    | none =>
      obtain ⟨_, plain | ⟨_, _, _, same, _⟩, _⟩ := step.evolves.fresh ref later found there
      · rw [body] at plain
        exact plain
      · rw [body] at same
        cases same
    | some cell =>
      rcases step.evolves.kept ref cell there with ⟨same, found', kept | ⟨_, becomes⟩⟩ | ⟨gone, _⟩
      · rw [found, Option.some.injEq] at found'
        subst found'
        exact wired.type ref shape ((Heap.body_eq there).trans (kept.symm.trans body))
      · rw [found, Option.some.injEq] at found'
        subst found'
        rw [body] at becomes
        generalize cell.body = old at becomes
        cases becomes
      · rw [gone] at found
        cases found
  · intro id host handle registered
    have claimed := World.mem_claims registered
    obtain ⟨bridged, shape, same⟩ : ∃ bridged, before.heap.bridgedType? handle = some bridged ∧
        bridged.registry = id ∧ bridged.host = host := by
      rcases step.evolves.types id host handle registered with old | new
      · exact wired.handle id host handle old
      · exact new
    exact ⟨bridged, step.keeps_type 0 framed shape (by simp [claimed]), same⟩

/-- Steps lead from sound worlds to sound worlds. -/
theorem sound (step : Step program touch before held after left)
    (sound : before.Sound program held) : after.Sound program left where
  balanced := step.balanced sound.balanced sound.within sound.grounded
  within := step.within sound.within
  wired := step.wired sound.balanced sound.wired
  grounded := step.grounded sound.balanced sound.grounded

end Step

end HostBridge
