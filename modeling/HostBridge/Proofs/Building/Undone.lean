import HostBridge.Proofs.Building.Step

/-!
# What is built can be undone

Every step of building keeps what was there: an object that was there before is owned by the world
that it was built on, so building never gives the last reference to it up.  New objects are made of
older ones; so if none of the references to them is held any more, all of them have gone away.
-/

namespace HostBridge

variable {program : Program} {lent : Ref → Prop} {base world after : World}
  {held left frame : Multiset Ref}

/-! ## One step -/

namespace World.Underlies

/-- A change that leaves all contents and registered types alone. -/
theorem of_bodies (underlies : base.Underlies lent world held)
    (same : ∀ ref, (after.heap.cell? ref).map (·.body) = (world.heap.cell? ref).map (·.body))
    (places : world.heap.size ≤ after.heap.size) (backdrop : after.backdrop = world.backdrop)
    (sources : ∀ ref ∈ left, ref ∈ held ∨ lent ref) : base.Underlies lent after left where
  old ref used := (same ref).trans (underlies.old ref used)
  new ref cell fresh there := by
    have reading := same ref
    rw [there, Option.map_some] at reading
    obtain ⟨before, there', body⟩ := Option.map_eq_some_iff.mp reading.symm
    rw [← body]
    exact underlies.new ref before fresh there'
  held ref member := by
    rcases sources ref member with inside | found
    · exact underlies.held ref inside
    · exact .inl found
  places := Nat.le_trans underlies.places places
  backdrop := backdrop.trans underlies.backdrop

/-- A new object that is made of what is held. -/
theorem of_push (underlies : base.Underlies lent world held) (within : world.Within held)
    {body : Body} {rest : Multiset Ref} (heap : after.heap = world.heap.push body)
    (built : body.Built) (backdrop : after.backdrop = world.backdrop)
    (given : held = rest + body.references) (taken : left = rest + {world.heap.next}) :
    base.Underlies lent after left := by
  have mine : ∀ ref ∈ body.references, ref ∈ held := fun ref member => by simp [given, member]
  refine ⟨fun ref used => ?_, fun ref cell fresh there => ?_, fun ref member => ?_, ?_,
    backdrop.trans underlies.backdrop⟩
  · rw [heap, Heap.cell?_push, if_neg, underlies.old ref used]
    rintro rfl
    exact absurd (Nat.lt_of_lt_of_le used underlies.places) (Nat.lt_irrefl _)
  · rw [heap, Heap.cell?_push] at there
    split at there
    · rename_i new
      cases there
      refine ⟨built, fun inner member => ⟨?_, underlies.held inner (mine inner member)⟩⟩
      rw [new]
      exact within inner (by simp [World.owed, mine inner member])
    · exact underlies.new ref cell fresh there
  · rw [taken, Multiset.mem_add, Multiset.mem_singleton] at member
    rcases member with inside | rfl
    · exact underlies.held ref (by simp [given, inside])
    · exact .inr underlies.places
  · rw [heap, Heap.size_push]
    exact Nat.le_succ_of_le underlies.places

/-- What was there and is counted is owned by what is still there. -/
theorem one_lt_count (underlies : base.Underlies lent world held)
    (balanced : base.Balanced frame) (tidy : base.Tidy) (sound : world.Sound program (held + frame))
    {ref : Ref} {cell : Cell} (old : ref.place < base.heap.size)
    (there : world.heap.cell? ref = some cell) (member : ref ∈ held) : 1 < cell.count := by
  have reading := underlies.old ref old
  rw [there, Option.map_some] at reading
  obtain ⟨before, there', _⟩ := Option.map_eq_some_iff.mp reading.symm
  have counted := balanced ref before there'
  have positive := tidy.counted ref before there'
  obtain ⟨rest, given⟩ := Multiset.exists_cons_of_mem member
  refine sound.balanced.one_lt_count (rest + frame) there ?_ ?_
  · rw [given, ← Multiset.singleton_add]
    abel
  · by_cases pinned : 0 < ref.pinned
    · exact .inr pinned
    · have owed : ref ∈ base.owed frame := Multiset.count_pos.mp (by omega)
      rw [World.owed, Multiset.mem_add, Multiset.mem_add] at owed
      rw [Multiset.mem_add, Multiset.mem_add, Multiset.mem_add]
      rcases owed with (owned | claimed) | framed
      · obtain ⟨outer, outerCell, outerThere, inside⟩ := Heap.exists_of_mem_owned owned
        have same := underlies.old outer (Heap.place_lt_size outerThere)
        rw [outerThere, Option.map_some] at same
        obtain ⟨later, found, body⟩ := Option.map_eq_some_iff.mp same
        exact .inl (.inl (.inl (Heap.mem_owned found (by rwa [body]))))
      · rw [← World.claims_of_backdrop underlies.backdrop] at claimed
        exact .inl (.inl (.inr claimed))
      · exact .inl (.inr (.inr framed))

end World.Underlies

/-- Every step of building keeps what was there. -/
theorem Build.underlies (build : Build program lent world held after left)
    (sound : world.Sound program (held + frame)) (balanced : base.Balanced frame)
    (tidy : base.Tidy) (underlies : base.Underlies lent world held) :
    base.Underlies lent after left := by
  cases build with
  | note level text =>
    exact underlies.of_bodies (fun _ => rfl) (le_refl _) rfl fun _ => .inl
  | retain ref used found taken =>
    refine underlies.of_bodies (world.heap.body_cell?_retain ref)
      (Nat.le_of_eq (Heap.size_retain _ _).symm) rfl fun other member => ?_
    rw [taken, Multiset.mem_add, Multiset.mem_singleton] at member
    rcases member with inside | rfl
    · exact .inl inside
    · exact found.symm
  | @lower _ ref cell there shared given =>
    refine underlies.of_bodies (fun other => ?_) (Nat.le_of_eq (Heap.size_put _ _ _).symm) rfl
      fun other member => .inl (by simp [given, member])
    rw [Heap.cell?_put _ there]
    by_cases same : other = ref
    · simp [same, there]
    · simp [same]
  | forget ref gone given =>
    exact underlies.of_bodies (fun _ => rfl) (le_refl _) rfl
      fun other member => .inl (by simp [given, member])
  | @retire _ ref cell rest there last given taken =>
    -- What was there is counted for the world before as well, so what goes away is new.
    have fresh : base.heap.size ≤ ref.place := by
      refine Nat.le_of_not_lt fun old => ?_
      have many := underlies.one_lt_count balanced tidy sound old there (by simp [given])
      omega
    obtain ⟨built, parts⟩ := underlies.new ref cell fresh there
    have others : ∀ other, other ≠ ref →
        (world.retire ref cell.body).heap.cell? other = world.heap.cell? other := by
      intro other apart
      rw [World.heap_retire, Heap.cell?_put _ there, if_neg apart]
    refine ⟨fun other used => ?_, fun other later young found => ?_, fun other member => ?_, ?_,
      (World.backdrop_retire sound.wired there built).trans underlies.backdrop⟩
    · rw [others other (by rintro rfl; omega)]
      exact underlies.old other used
    · by_cases same : other = ref
      · rw [same, World.heap_retire, Heap.cell?_put_same none there] at found
        cases found
      · rw [others other same] at found
        exact underlies.new other later young found
    · rw [taken, Multiset.mem_add, Multiset.mem_coe] at member
      rcases member with inside | part
      · exact underlies.held other (by simp [given, inside])
      · exact (parts other part).2
    · rw [World.heap_retire, Heap.size_put]
      exact underlies.places
  | place body rest data admits given taken =>
    exact underlies.of_push (fun ref member => sound.within ref (by
      simp only [World.owed, Multiset.mem_add] at member ⊢
      exact member.imp_right .inl)) rfl data.built rfl given taken
  | enter registry type value rest shows given taken =>
    refine underlies.of_push (fun ref member => sound.within ref ?_) rfl trivial ?_ given taken
    · simp only [World.owed, Multiset.mem_add] at member ⊢
      exact member.imp_right .inl
    · exact World.backdrop_updateRegistry _ registry (Registry.read_updateRoster
        (fun entry => { entry with roster := .empty }) (fun _ _ => rfl) _)

/-- Every step of building keeps new objects that are owned. -/
theorem Build.alive (build : Build program lent world held after left) {bound : Nat}
    (balanced : world.Balanced (held + frame)) (old : ∀ ref, lent ref → ref.place < bound)
    (alive : ∀ ref ∈ world.owed held, bound ≤ ref.place → world.heap.holds ref = true) :
    ∀ ref ∈ after.owed left, bound ≤ ref.place → after.heap.holds ref = true := by
  have pushed : ∀ {body : Body}, after.heap = world.heap.push body →
      after.owed left = world.owed held + {world.heap.next} →
        ∀ ref ∈ after.owed left, bound ≤ ref.place → after.heap.holds ref = true := by
    intro body heap owed ref member fresh
    rw [Heap.holds, heap, Heap.cell?_push]
    split
    · rfl
    · rename_i other
      rw [owed, Multiset.mem_add, Multiset.mem_singleton] at member
      exact alive ref (member.resolve_right other) fresh
  cases build with
  | note level text => exact alive
  | retain ref used found taken =>
    intro other member fresh
    have same : (world.retain ref).heap.holds other = world.heap.holds other := by
      have reading := congrArg Option.isSome (world.heap.body_cell?_retain ref other)
      rwa [Option.isSome_map, Option.isSome_map] at reading
    rw [taken, Step.owed_retain, Multiset.mem_add, Multiset.mem_singleton] at member
    rw [same]
    refine alive other (member.elim id ?_) fresh
    rintro rfl
    rcases found with found | inside
    · exact absurd (old other found) (Nat.not_lt.mpr fresh)
    · exact Multiset.mem_add.mpr (.inr inside)
  | @lower _ ref cell there shared given =>
    intro other member fresh
    have inside : other ∈ world.owed held := by
      rw [← Step.owed_lower (cell.count - 1) there given]
      exact Multiset.mem_add.mpr (.inl member)
    have present := alive other inside fresh
    rw [Heap.holds, Heap.cell?_put _ there]
    split
    · rfl
    · exact present
  | forget ref gone given =>
    intro other member fresh
    refine alive other ?_ fresh
    rw [World.owed, Multiset.mem_add] at member ⊢
    exact member.imp_right fun inside => by simp [given, inside]
  | @retire _ ref cell rest there last given taken =>
    intro other member fresh
    have owed := Step.owed_retire there given taken
    have inside : other ∈ world.owed held := by
      rw [← owed]
      exact Multiset.mem_add.mpr (.inl member)
    have present := alive other inside fresh
    rw [World.heap_retire, Heap.holds, Heap.cell?_put _ there]
    split
    · rename_i same
      -- a place that is still owed is counted twice, and a last reference only once
      have counted := balanced ref cell there
      have twice := Multiset.count_pos.mpr (same ▸ member)
      have held' : world.owed (held + frame) = world.owed held + frame := by
        simp only [World.owed, add_assoc]
      rw [held', ← owed, Multiset.count_add, Multiset.count_add,
        Multiset.count_singleton_self] at counted
      omega
    · exact present
  | place body rest data admits given taken => exact pushed rfl (Step.owed_push rfl rfl given taken)
  | enter registry type value rest shows given taken =>
    exact pushed rfl (Step.owed_push rfl
      (World.claims_updateRegistry_same registry (Registry.types_updateRoster _)) given taken)

/-! ## Sequences of steps -/

namespace Builds

variable {given : Multiset Ref}

/-- Building keeps what was there. -/
theorem underlies (builds : Builds program lent base 0 world held)
    (sound : base.Sound program frame) (tidy : base.Tidy) : base.Underlies lent world held := by
  have run : ∀ {first second : World} {given held : Multiset Ref},
      Builds program lent first given second held → first.Sound program (given + frame) →
        base.Underlies lent first given → base.Underlies lent second held := by
    intro first second given held builds start underlies
    induction builds with
    | refl => exact underlies
    | step front last ih =>
      exact last.underlies (((front.path .nothing).frame frame).sound start) sound.balanced tidy
        (ih start underlies)
  exact run builds (by rwa [zero_add]) (.refl base lent)

theorem sound (builds : Builds program lent base 0 world held)
    (sound : base.Sound program frame) : world.Sound program (held + frame) :=
  ((builds.path .nothing).frame frame).sound (by rwa [zero_add])

/-- What is held, or owned by something, is there if it is new. -/
theorem alive (builds : Builds program lent base 0 world held) (sound : base.Sound program frame)
    (old : ∀ ref, lent ref → ref.place < base.heap.size) :
    ∀ ref ∈ world.owed held, base.heap.size ≤ ref.place → world.heap.holds ref = true := by
  have start : ∀ ref ∈ base.owed 0, base.heap.size ≤ ref.place → base.heap.holds ref = true := by
    intro ref member fresh
    refine absurd (sound.within ref ?_) (Nat.not_lt.mpr fresh)
    rw [World.owed, add_zero] at member
    exact Multiset.mem_add.mpr (.inl member)
  generalize nothing : (0 : Multiset Ref) = given at builds start
  induction builds with
  | refl => exact start
  | step front last ih =>
    subst nothing
    exact last.alive (front.sound sound).balanced old (ih rfl start)

/-- What is held, or owned by something, has the projection that it had. -/
theorem same_key {middle : World} (begun : Builds program lent base 0 middle held)
    (builds : Builds program lent middle held world left) (sound : base.Sound program frame)
    (tidy : base.Tidy) (layered : base.heap.Layered)
    (old : ∀ ref, lent ref → ref.place < base.heap.size) {ref : Ref}
    (used : ref.place < middle.heap.size) (member : ref ∈ world.owed left) :
    world.heap.key ref = middle.heap.key ref := by
  have whole := begun.trans builds
  have layered' : middle.heap.Layered :=
    ((begun.path .nothing).frame frame).layered (by rwa [zero_add]) layered
  refine ((builds.path .nothing).frame frame).same_key (begun.sound sound) layered' used
    fun present => ?_
  by_cases fresh : base.heap.size ≤ ref.place
  · exact whole.alive sound old ref member fresh
  · have used := Nat.lt_of_not_le fresh
    have same := ((whole.underlies sound tidy).old ref used).trans
      ((begun.underlies sound tidy).old ref used).symm
    have holds := congrArg Option.isSome same
    rw [Option.isSome_map, Option.isSome_map] at holds
    exact holds.trans present

/-- Nothing that was built is left when nothing is held. -/
theorem gone (builds : Builds program lent base 0 world 0) (sound : base.Sound program frame)
    (tidy : base.Tidy) {ref : Ref} (fresh : base.heap.size ≤ ref.place) :
    world.heap.cell? ref = none := by
  have underlies := builds.underlies sound tidy
  have balanced := (builds.sound sound).balanced
  have counted := ((builds.path .nothing).tidy tidy).counted
  by_contra alive
  obtain ⟨cell, there⟩ := Option.ne_none_iff_exists'.mp alive
  -- An object that is left has a younger owner, so the induction is on what places are left.
  induction left : world.heap.size - ref.place using Nat.strongRecOn generalizing ref cell with
  | ind distance ih =>
    have count := balanced ref cell there
    have loose : ref.pinned = 0 :=
      if_neg (Nat.not_lt.mpr (Nat.le_trans sound.grounded.large fresh))
    have owed : ref ∈ world.owed (0 + frame) :=
      Multiset.count_pos.mp (by have := counted ref cell there; omega)
    rw [World.owed, World.claims_of_backdrop underlies.backdrop, Multiset.mem_add,
      Multiset.mem_add] at owed
    have before : ref ∉ base.owed frame := fun inside =>
      absurd (sound.within ref inside) (Nat.not_lt.mpr fresh)
    rw [World.owed, Multiset.mem_add, Multiset.mem_add] at before
    rcases owed with (owned | claimed) | framed
    · obtain ⟨outer, outerCell, outerThere, inside⟩ := Heap.exists_of_mem_owned owned
      by_cases young : base.heap.size ≤ outer.place
      · have older := ((underlies.new outer outerCell young outerThere).2 ref inside).1
        have inner := Heap.place_lt_size there
        have outside := Heap.place_lt_size outerThere
        exact ih (world.heap.size - outer.place) (by omega) young (by simp [outerThere])
          outerCell outerThere rfl
      · have same := underlies.old outer (Nat.lt_of_not_le young)
        rw [outerThere, Option.map_some] at same
        obtain ⟨start, found, body⟩ := Option.map_eq_some_iff.mp same.symm
        exact before (.inl (.inl (Heap.mem_owned found (by rwa [body]))))
    · exact before (.inl (.inr claimed))
    · exact before (.inr (by simpa using framed))

/-- Wrappers that are built stand in front of the members that a roster had. -/
theorem fronts (builds : Builds program lent base 0 world held) (sound : base.Sound program frame)
    (tidy : base.Tidy) {id : RegistryId} (alive : 0 < (base.registry id).owners)
    {members : List Ref} (distinct : members.Nodup)
    (older : ∀ ref ∈ members, ref.place < base.heap.size)
    (roster : (base.registry id).roster = .ofList members) :
    world.Fronts id base.heap.size members := by
  have start : base.Fronts id base.heap.size members := by
    rw [World.Fronts, Heap.wrappers_size, roster, List.nil_append]
  generalize nothing : (0 : Multiset Ref) = given at builds
  induction builds with
  | refl => exact start
  | step front last ih =>
    subst nothing
    have before := front.underlies sound tidy
    have after := (front.step last).underlies sound tidy
    have path := front.path .nothing
    refine (last.step .nothing).fronts not_false (front.sound sound).wired
      (path.lives not_false alive) path.grows.places distinct older
      (fun ref inside present => ?_) (ih rfl)
    have same := (after.old ref (older ref inside)).trans (before.old ref (older ref inside)).symm
    obtain ⟨cell, there⟩ := Option.isSome_iff_exists.mp present
    rw [there, Option.map_some] at same
    obtain ⟨later, found, _⟩ := Option.map_eq_some_iff.mp same
    simp [Heap.holds, found]

/-- When nothing is held any more, registries are as they were. -/
theorem registry_eq (builds : Builds program lent base 0 world 0) (sound : base.Sound program frame)
    (tidy : base.Tidy) (id : RegistryId) : world.registry id = base.registry id := by
  have underlies := builds.underlies sound tidy
  obtain ⟨owners, bridged, types⟩ := World.registry_of_backdrop underlies.backdrop id
  have rosters : (world.registry id).roster = (base.registry id).roster := by
    by_cases alive : 0 < (base.registry id).owners
    · obtain ⟨members, distinct, older, roster⟩ := tidy.lists id
      have none : world.heap.wrappers id base.heap.size = [] := by
        refine List.eq_nil_iff_forall_not_mem.mpr fun ref inside => ?_
        obtain ⟨fresh, wrapper⟩ := Heap.mem_wrappers.mp inside
        rw [Heap.isWrapper, Heap.body, builds.gone sound tidy fresh] at wrapper
        cases wrapper
      have fronts := builds.fronts sound tidy alive distinct older roster
      rw [World.Fronts, none, List.nil_append] at fronts
      rw [fronts, roster]
    · have gone : ¬0 < (world.registry id).owners := by rwa [owners]
      exact (builds.path .nothing).roster_of_gone not_false gone
  cases mine : world.registry id
  cases its : base.registry id
  simp_all

/-- When nothing is held any more, the world is as it was. -/
theorem untouched (builds : Builds program lent base 0 world 0) (sound : base.Sound program frame)
    (tidy : base.Tidy) : base.Untouched world := by
  have underlies := builds.underlies sound tidy
  have after := builds.sound sound
  have bodies : ∀ ref, (world.heap.cell? ref).map (·.body) = (base.heap.cell? ref).map (·.body) := by
    intro ref
    by_cases used : ref.place < base.heap.size
    · exact underlies.old ref used
    · have none : base.heap.cell? ref = none :=
        Option.eq_none_iff_forall_ne_some.mpr fun _ there => used (Heap.place_lt_size there)
      rw [builds.gone sound tidy (Nat.le_of_not_lt used), none]
  have owed : world.owed (0 + frame) = base.owed frame := by
    rw [World.owed, World.owed, World.claims_of_backdrop underlies.backdrop,
      Heap.owned_congr bodies, zero_add]
  refine ⟨fun ref => ?_, ?_⟩
  · have same := bodies ref
    cases found : world.heap.cell? ref with
    | none =>
      rw [found, Option.map_none] at same
      rw [Option.map_eq_none_iff.mp same.symm]
    | some later =>
      rw [found, Option.map_some] at same
      obtain ⟨cell, there, body⟩ := Option.map_eq_some_iff.mp same.symm
      have count : later.count = cell.count := by
        rw [after.balanced ref later found, sound.balanced ref cell there, owed]
      rw [there, show later = cell by cases later; cases cell; simp_all]
  · have registries := World.registries_ext
      (World.size_registries_of_backdrop underlies.backdrop) (builds.registry_eq sound tidy)
    obtain ⟨_, rest⟩ := Prod.mk.inj underlies.backdrop
    rw [World.surroundings, World.surroundings, registries, rest]

end Builds

end HostBridge
