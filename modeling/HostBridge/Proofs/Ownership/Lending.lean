import HostBridge.Proofs.Ownership.Path
import HostBridge.Proofs.Ownership.Release
import HostBridge.Proofs.Roster.Chain

/-!
# Lent references

Code that takes references and gives them up again leaves nothing behind.  This
needs more than balance: an object is not only counted once for each owner, it is
counted at all, so that giving a lent reference up is never giving the last one
up; and a roster is that of a list of members, so that entering and leaving it
restores its links.
-/

namespace HostBridge

/-! ## Tidy worlds -/

/-- A roster lists each of its members once, and their places are used. -/
def Roster.Lists (roster : Roster) (size : Nat) : Prop :=
  ∃ members : List Ref, members.Nodup ∧ (∀ ref ∈ members, ref.place < size) ∧
    roster = .ofList members

namespace Roster.Lists

variable {roster : Roster} {size : Nat}

theorem empty (size : Nat) : Roster.empty.Lists size := ⟨[], .nil, by simp, rfl⟩

theorem listed (lists : roster.Lists size) : roster.Listed := by
  obtain ⟨members, distinct, _, same⟩ := lists
  exact ⟨members, distinct, same⟩

theorem mono (lists : roster.Lists size) {larger : Nat} (grown : size ≤ larger) :
    roster.Lists larger := by
  obtain ⟨members, distinct, used, rfl⟩ := lists
  exact ⟨members, distinct, fun ref member => Nat.lt_of_lt_of_le (used ref member) grown, rfl⟩

theorem unlink (lists : roster.Lists size) (ref : Ref) : (roster.unlink ref).Lists size := by
  obtain ⟨members, distinct, used, rfl⟩ := lists
  refine ⟨members.erase ref, distinct.erase ref, fun other member => ?_,
    Roster.unlink_ofList ref distinct⟩
  exact used other (List.mem_of_mem_erase member)

theorem distinct_cons {members : List Ref} (distinct : members.Nodup)
    (used : ∀ ref ∈ members, ref.place < size) {ref : Ref} (fresh : size ≤ ref.place) :
    (ref :: members).Nodup :=
  List.nodup_cons.mpr ⟨fun inside => absurd (used ref inside) (Nat.not_lt.mpr fresh), distinct⟩

theorem pushFront (lists : roster.Lists size) {ref : Ref} (fresh : ref.place = size) :
    (roster.pushFront ref).Lists (size + 1) := by
  obtain ⟨members, distinct, used, rfl⟩ := lists
  have longer := distinct_cons distinct used (Nat.le_of_eq fresh.symm)
  refine ⟨ref :: members, longer, fun other member => ?_, Roster.pushFront_ofList longer⟩
  rcases List.mem_cons.mp member with rfl | old
  · rw [fresh]
    exact Nat.lt_succ_self size
  · exact Nat.lt_succ_of_lt (used other old)

/-- Who enters a roster and leaves it at once leaves it as it was. -/
theorem unlink_pushFront (lists : roster.Lists size) {ref : Ref} (fresh : size ≤ ref.place) :
    (roster.pushFront ref).unlink ref = roster := by
  obtain ⟨members, distinct, used, rfl⟩ := lists
  have longer := distinct_cons distinct used fresh
  rw [Roster.pushFront_ofList longer, Roster.unlink_ofList ref longer, List.erase_cons_head]

end Roster.Lists

/-- Objects that are there are counted, and rosters are lists of members. -/
structure World.Tidy (world : World) : Prop where
  counted : ∀ ref cell, world.heap.cell? ref = some cell → 0 < cell.count
  lists : ∀ id, (world.registry id).roster.Lists world.heap.size

theorem World.tidy_initial : World.initial.Tidy where
  counted ref cell present := by
    have first : Heap.initial.cell? ref = some cell := present
    obtain ⟨place⟩ := ref
    match place with
    | 0 | 1 | 2 =>
      cases first
      exact Nat.zero_lt_one
    | place + 3 =>
      rw [Heap.cell?_eq] at first
      simp [Heap.initial] at first
  lists id := by
    have none : World.initial.registry id = .empty := by simp [World.registry, World.initial]
    rw [none]
    exact .empty _

/-- Every object is counted after one has been changed that stays counted. -/
theorem Heap.counted_put {heap : Heap} {ref : Ref} {old : Cell} {new : Option Cell}
    (counted : ∀ ref cell, heap.cell? ref = some cell → 0 < cell.count)
    (there : heap.cell? ref = some old) (positive : ∀ cell, new = some cell → 0 < cell.count) :
    ∀ other cell, (heap.put ref new).cell? other = some cell → 0 < cell.count := by
  intro other cell present
  rw [Heap.cell?_put _ there] at present
  split at present
  · exact positive cell present
  · exact counted other cell present

variable {program : Program} {touch : Permission}

namespace World.Tidy

variable {before after : World}

/-- A world is tidy for its objects and its rosters. -/
theorem same (tidy : before.Tidy) (heap : after.heap = before.heap)
    (rosters : ∀ id, (after.registry id).roster = (before.registry id).roster) : after.Tidy := by
  refine ⟨by rw [heap]; exact tidy.counted, fun id => ?_⟩
  rw [rosters, heap]
  exact tidy.lists id

/-- A new object is counted once. -/
theorem counted_push (tidy : before.Tidy) {body : Body}
    (heap : after.heap = before.heap.push body) :
    ∀ ref cell, after.heap.cell? ref = some cell → 0 < cell.count := by
  intro ref cell present
  rw [heap, Heap.cell?_push] at present
  split at present
  · cases present
    exact Nat.zero_lt_one
  · exact tidy.counted ref cell present

/-- Changing an object keeps the world tidy if it stays counted. -/
theorem counted_put (tidy : before.Tidy) {ref : Ref} {old : Cell} {new : Option Cell}
    (there : before.heap.cell? ref = some old) (positive : ∀ cell, new = some cell → 0 < cell.count)
    (heap : after.heap = before.heap.put ref new) :
    ∀ ref cell, after.heap.cell? ref = some cell → 0 < cell.count := by
  rw [heap]
  exact Heap.counted_put tidy.counted there positive

end World.Tidy

/-- Every step leaves the world tidy. -/
theorem Step.tidy {before after : World} {held left : Multiset Ref}
    (step : Step program touch before held after left) (tidy : before.Tidy) : after.Tidy := by
  have lists := tidy.lists
  cases step with
  | settle settles even =>
    exact tidy.same settles.heap settles.roster
  | retain ref used taken =>
    refine ⟨?_, fun id => (lists id).mono (Nat.le_of_eq (Heap.size_retain _ _).symm)⟩
    cases present : before.heap.cell? ref with
    | none =>
      have same : (before.retain ref).heap = before.heap := Heap.retain_of_gone present
      rw [same]
      exact tidy.counted
    | some cell =>
      refine tidy.counted_put present ?_ (Heap.retain_of_cell present)
      rintro _ ⟨⟩
      exact Nat.succ_pos _
  | @lower _ _ ref cell there shared given =>
    refine ⟨tidy.counted_put there ?_ rfl,
      fun id => (lists id).mono (Nat.le_of_eq (Heap.size_put _ _ _).symm)⟩
    rintro _ ⟨⟩
    exact Nat.sub_pos_of_lt shared
  | forget ref gone given => exact tidy
  | @retire _ _ ref cell rest there last given taken =>
    refine ⟨tidy.counted_put there (fun _ member => by cases member)
      (World.heap_retire before ref cell.body), fun id => ?_⟩
    rw [World.heap_retire, Heap.size_put]
    rcases before.roster_retire_cases ref cell.body id with same | ⟨_, same⟩
    · rw [same]
      exact lists id
    · rw [same]
      exact (lists id).unlink ref
  | place body rest plain given taken =>
    refine ⟨tidy.counted_push rfl, fun id => (lists id).mono ?_⟩
    exact (Nat.le_succ _).trans (Nat.le_of_eq (Heap.size_push _ _).symm)
  | wrap registry type content rest shows given taken =>
    have size : (before.enter registry type content).heap.size = before.heap.size + 1 :=
      Heap.size_push _ _
    refine ⟨tidy.counted_push rfl, fun id => ?_⟩
    rw [size]
    rw [World.enter, World.roster_updateRoster]
    split
    · exact (lists id).pushFront rfl
    · exact (lists id).mono (Nat.le_succ _)
  | @rewrite _ _ ref cell body there touched becomes even =>
    refine ⟨tidy.counted_put there ?_ (Heap.setBody_of_cell body there),
      fun id => (lists id).mono (Nat.le_of_eq (Heap.size_setBody _ _ _).symm)⟩
    rintro _ ⟨⟩
    exact tidy.counted ref cell there
  | @enroll _ _ bridged handle created' shape unknown fresh given =>
    exact tidy.same rfl fun id => World.read_updateRegistry Registry.roster before _ id fun _ => rfl
  | withdraw registry taken =>
    exact tidy.same rfl fun id => World.read_updateRegistry Registry.roster before _ id fun _ => rfl
  | scatter registry owners permitted =>
    refine ⟨tidy.counted, fun id => ?_⟩
    rcases before.registry_updateRegistry registry id (.scattered owners) with same | ⟨_, same⟩
    · rw [same]
      exact lists id
    · rw [same, Registry.scattered, (lists id).listed.detachAll]
      exact .empty _

/-- A tidy world is left tidy. -/
theorem Path.tidy {before after : World} {held left : Multiset Ref}
    (path : Path program touch before held after left) (tidy : before.Tidy) : after.Tidy := by
  induction path with
  | refl => exact tidy
  | step _ last ih => exact last.tidy ih

/-! ## Lending and giving back -/

/-- All of a world but its objects and its log. -/
def World.surroundings (world : World) :
    Array Registry × Array Interpreter × Option InterpreterId × Environment × Array Event :=
  (world.registries, world.interpreters, world.current, world.environment, world.events)

namespace World

variable {world : World}

/-- References of which others are left are given up without anything going away. -/
theorem releaseAll_of_surplus (world : World) (refs : List Ref)
    (surplus : ∀ ref ∈ refs, ∀ cell, world.heap.cell? ref = some cell →
      refs.count ref < cell.count) :
    (∀ ref, (world.releaseAll refs).heap.cell? ref =
      (world.heap.cell? ref).map fun cell => { cell with count := cell.count - refs.count ref }) ∧
    (world.releaseAll refs).heap.size = world.heap.size ∧
    (world.releaseAll refs).surroundings = world.surroundings := by
  induction refs generalizing world with
  | nil =>
    rw [releaseAll_nil]
    refine ⟨fun ref => ?_, rfl, rfl⟩
    cases present : world.heap.cell? ref <;> simp
  | cons given refs ih =>
    cases there : world.heap.cell? given with
    | none =>
      rw [releaseAll_of_gone refs there]
      obtain ⟨cells, rest⟩ := ih world fun ref member cell present =>
        Nat.lt_of_le_of_lt List.count_le_count_cons (surplus ref (by simp [member]) cell present)
      refine ⟨fun ref => ?_, rest⟩
      rw [cells]
      by_cases same : ref = given
      · rw [same, there]
        rfl
      · rw [List.count_cons_of_ne (Ne.symm same)]
    | some cell =>
      have many := surplus given (by simp) cell there
      rw [List.count_cons_self] at many
      rw [releaseAll_of_shared refs there (by omega)]
      have less : ∀ ref ∈ refs, ∀ later, (world.heap.put given
          (some { cell with count := cell.count - 1 })).cell? ref = some later →
            refs.count ref < later.count := by
        intro ref member later present
        rw [Heap.cell?_put _ there] at present
        by_cases same : ref = given
        · rw [if_pos same, Option.some.injEq] at present
          rw [← present, same]
          dsimp only
          omega
        · rw [if_neg same] at present
          have enough := surplus ref (by simp [member]) later present
          rwa [List.count_cons_of_ne (Ne.symm same)] at enough
      obtain ⟨cells, size, rest⟩ :=
        ih { world with heap := world.heap.put given (some { cell with count := cell.count - 1 }) }
          less
      refine ⟨fun ref => ?_, size.trans (Heap.size_put _ _ _), rest⟩
      rw [cells]
      dsimp only
      rw [Heap.cell?_put _ there]
      by_cases same : ref = given
      · subst same
        rw [if_pos rfl, there, List.count_cons_self]
        simp only [Option.map_some, Option.some.injEq, Cell.mk.injEq, and_true]
        omega
      · rw [if_neg same, List.count_cons_of_ne (Ne.symm same)]

end World

/--
Nothing has been changed: every object that was there is there with the same contents and
the same count, no other object is there, and the registries with their types and
rosters, the interpreters, the process environment and the events are the same.
-/
structure World.Untouched (before after : World) : Prop where
  objects : ∀ ref, after.heap.cell? ref = before.heap.cell? ref
  surroundings : after.surroundings = before.surroundings

/-- A world that lent references, and new empty dicts among them, tell from another one. -/
structure World.Lends (base world : World) (refs : Multiset Ref) : Prop where
  kept : ∀ ref cell, base.heap.cell? ref = some cell →
    world.heap.cell? ref = some { cell with count := cell.count + refs.count ref }
  fresh : ∀ ref cell, base.heap.cell? ref = none → world.heap.cell? ref = some cell →
    cell = ⟨1, .dict .empty⟩ ∧ refs.count ref = 1 ∧ base.heap.size ≤ ref.place
  size : base.heap.size ≤ world.heap.size
  within : ∀ ref ∈ refs, ref.place < world.heap.size
  surroundings : world.surroundings = base.surroundings

namespace World.Lends

variable {base world : World} {refs rest : Multiset Ref} {ref : Ref}

theorem refl (world : World) : world.Lends world 0 where
  kept _ _ present := present
  fresh _ _ gone present := by
    rw [gone] at present
    cases present
  size := le_refl _
  within _ member := by simp at member
  surroundings := rfl

/-- When nothing is lent any more, nothing has been changed. -/
theorem untouched (lends : base.Lends world 0) : base.Untouched world where
  objects ref := by
    cases present : base.heap.cell? ref with
    | some cell => exact lends.kept ref cell present
    | none =>
      cases found : world.heap.cell? ref with
      | none => rfl
      | some cell => exact absurd (lends.fresh ref cell present found).2.1 (by simp)
  surroundings := lends.surroundings

/-- Changing what is lent of one object, and counting it so. -/
theorem recount (lends : base.Lends world refs) {cell : Cell} {count : Nat}
    (present : base.heap.cell? ref = some cell) {later : Multiset Ref}
    (counted : count = cell.count + later.count ref)
    (others : ∀ other, other ≠ ref → later.count other = refs.count other) :
    base.Lends { world with heap := world.heap.put ref (some { cell with count }) } later := by
  have there := lends.kept ref cell present
  refine ⟨fun other old found => ?_, fun other new gone found => ?_,
    lends.size.trans (Nat.le_of_eq (Heap.size_put _ _ _).symm), fun other member => ?_,
    lends.surroundings⟩
  · dsimp only
    rw [Heap.cell?_put _ there]
    by_cases same : other = ref
    · subst same
      rw [present, Option.some.injEq] at found
      rw [if_pos rfl, counted, found]
    · rw [if_neg same, others other same]
      exact lends.kept other old found
  · dsimp only at found
    rw [Heap.cell?_put _ there] at found
    by_cases same : other = ref
    · rw [same, present] at gone
      cases gone
    · rw [if_neg same] at found
      rw [others other same]
      exact lends.fresh other new gone found
  · dsimp only
    rw [Heap.size_put]
    by_cases same : other = ref
    · rw [same]
      exact Heap.place_lt_size there
    · refine lends.within other (Multiset.count_pos.mp ?_)
      rw [← others other same]
      exact Multiset.count_pos.mpr member

/-- A reference is lent. -/
theorem retain (lends : base.Lends world refs) {cell : Cell}
    (present : base.heap.cell? ref = some cell) :
    base.Lends (world.retain ref) (refs + {ref}) := by
  rw [World.retain, Heap.retain_of_cell (lends.kept ref cell present)]
  refine lends.recount present ?_ fun other apart => ?_
  · rw [Multiset.count_add, Multiset.count_singleton_self, Nat.add_assoc]
  · rw [Multiset.count_add, Multiset.count_singleton, if_neg apart, Nat.add_zero]

/-- References to objects that were there are lent. -/
theorem retainAll (lends : base.Lends world refs) (more : List Ref)
    (present : ∀ ref ∈ more, ∃ cell, base.heap.cell? ref = some cell) :
    base.Lends (world.retainAll more) (refs + more) := by
  induction more generalizing world refs with
  | nil => simpa [World.retainAll] using lends
  | cons ref more ih =>
    obtain ⟨cell, there⟩ := present ref (by simp)
    have later := ih (lends.retain there) fun other member => present other (by simp [member])
    rw [add_assoc, Multiset.singleton_add] at later
    exact later

/-- A new empty dict is lent. -/
theorem place (lends : base.Lends world refs) :
    base.Lends (world.place (.dict .empty)).2 (refs + {world.heap.next}) := by
  have unused : refs.count world.heap.next = 0 :=
    Multiset.count_eq_zero.mpr fun member => absurd (lends.within _ member) (Nat.lt_irrefl _)
  have apart : ∀ other, other ≠ world.heap.next →
      (refs + {world.heap.next}).count other = refs.count other := by
    intro other apart
    rw [Multiset.count_add, Multiset.count_singleton, if_neg apart, Nat.add_zero]
  have size : (world.place (.dict .empty)).2.heap.size = world.heap.size + 1 := Heap.size_push _ _
  have cell : ∀ other, (world.place (.dict .empty)).2.heap.cell? other =
      if other = world.heap.next then some ⟨1, .dict .empty⟩ else world.heap.cell? other :=
    Heap.cell?_push _ _
  refine ⟨fun other old found => ?_, fun other new gone found => ?_, ?_, fun other member => ?_,
    lends.surroundings⟩
  · have there := lends.kept other old found
    have distinct : other ≠ world.heap.next := by
      rintro rfl
      rw [Heap.cell?_next] at there
      cases there
    rw [cell, if_neg distinct, apart other distinct]
    exact there
  · rw [cell] at found
    by_cases same : other = world.heap.next
    · subst same
      rw [if_pos rfl, Option.some.injEq] at found
      refine ⟨found.symm, ?_, lends.size⟩
      rw [Multiset.count_add, unused, Multiset.count_singleton_self]
    · rw [if_neg same] at found
      rw [apart other same]
      exact lends.fresh other new gone found
  · rw [size]
    exact lends.size.trans (Nat.le_succ _)
  · rw [size]
    rcases Multiset.mem_add.mp member with old | new
    · exact Nat.lt_succ_of_lt (lends.within other old)
    · rw [Multiset.mem_singleton.mp new]
      exact Nat.lt_succ_self _

/-- What has not been there and is not there now can be left aside. -/
theorem forget (lends : base.Lends world (rest + {ref})) (absent : base.heap.cell? ref = none)
    (gone : world.heap.cell? ref = none) : base.Lends world rest := by
  have others : ∀ other, other ≠ ref → (rest + {ref}).count other = rest.count other := by
    intro other apart
    rw [Multiset.count_add, Multiset.count_singleton, if_neg apart, Nat.add_zero]
  refine ⟨fun other old found => ?_, fun other new missing found => ?_, lends.size,
    fun other member => lends.within other (Multiset.mem_add.mpr (.inl member)),
    lends.surroundings⟩
  · have distinct : other ≠ ref := by
      rintro rfl
      rw [absent] at found
      cases found
    rw [← others other distinct]
    exact lends.kept other old found
  · have distinct : other ≠ ref := by
      rintro rfl
      rw [gone] at found
      cases found
    rw [← others other distinct]
    exact lends.fresh other new missing found

/-- A new dict goes away. -/
theorem retire (lends : base.Lends world (rest + {ref})) {cell : Cell}
    (absent : base.heap.cell? ref = none) (found : world.heap.cell? ref = some cell) :
    base.Lends { world with heap := world.heap.put ref none } (rest + {ref}) := by
  refine ⟨fun other old present => ?_, fun other new missing present => ?_,
    lends.size.trans (Nat.le_of_eq (Heap.size_put _ _ _).symm),
    fun other member => Nat.lt_of_lt_of_eq (lends.within other member) (Heap.size_put _ _ _).symm,
    lends.surroundings⟩
  · have distinct : other ≠ ref := by
      rintro rfl
      rw [absent] at present
      cases present
    dsimp only
    rw [Heap.cell?_put _ found, if_neg distinct]
    exact lends.kept other old present
  · dsimp only at present
    rw [Heap.cell?_put _ found] at present
    split at present
    · cases present
    · exact lends.fresh other new missing present

/-- Lent references are given back. -/
theorem releaseAll (tidy : base.Tidy) (refs : List Ref) (lends : base.Lends world (rest + refs)) :
    base.Lends (world.releaseAll refs) rest := by
  induction refs generalizing world with
  | nil =>
    rw [releaseAll_nil]
    simpa using lends
  | cons ref refs ih =>
    have split : rest + (ref :: refs : List Ref) = rest + refs + {ref} := by
      rw [← Multiset.cons_coe, ← Multiset.singleton_add]
      abel
    rw [split] at lends
    cases present : base.heap.cell? ref with
    | some cell =>
      have there := lends.kept ref cell present
      have counted := tidy.counted ref cell present
      have given : (rest + refs + {ref}).count ref = (rest + (refs : Multiset Ref)).count ref + 1 :=
        by rw [Multiset.count_add _ _ {ref}, Multiset.count_singleton_self]
      rw [World.releaseAll_of_shared refs there (by dsimp only; omega)]
      refine ih (lends.recount present (by dsimp only; omega) fun other apart => ?_)
      rw [Multiset.count_add _ _ {ref}, Multiset.count_singleton, if_neg apart, Nat.add_zero]
    | none =>
      cases found : world.heap.cell? ref with
      | none =>
        rw [World.releaseAll_of_gone refs found]
        exact ih (lends.forget present found)
      | some cell =>
        obtain ⟨rfl, once, young⟩ := lends.fresh ref cell present found
        rw [World.releaseAll_of_last refs found (le_refl _)]
        exact ih ((lends.retire present found).forget present (Heap.cell?_put_same _ found))

/-- What had a place is read as before, in a world that further objects may have been added to. -/
theorem body (lends : base.Lends world refs) (used : ref.place < base.heap.size) :
    world.heap.body ref = base.heap.body ref := by
  cases present : base.heap.cell? ref with
  | some cell => rw [Heap.body_eq present, Heap.body_eq (lends.kept ref cell present)]
  | none =>
    cases found : world.heap.cell? ref with
    | none => simp only [Heap.body, present, found]
    | some cell =>
      have young := (lends.fresh ref cell present found).2.2
      exact absurd used (Nat.not_lt.mpr young)

mutual

/-- The missing dicts of a value are lent, too. -/
theorem completed : ∀ (value : HostValue) (world : World) (held : Multiset Ref),
    base.Lends world (held + value.references) →
      base.Lends (value.completed world).2 (held + (value.completed world).1.references)
  | .keywords none, world, held, lends => by
    have taken : held + (HostValue.keywords none).references = held := add_zero held
    rw [taken] at lends
    exact lends.place
  | .seq elements, world, held, lends | .tuple elements, world, held, lends
  | .struct elements, world, held, lends => completedAll elements world held lends
  | .map entries, world, held, lends => completedEntries entries world held lends
  | .boxed value, world, held, lends | .present value, world, held, lends =>
    completed value world held lends
  | .unit, _, _, lends | .bool _, _, _, lends | .int _, _, _, lends | .single _, _, _, lends
  | .double _, _, _, lends | .complexSingle _ _, _, _, lends | .complexDouble _ _, _, _, lends
  | .text _, _, _, lends | .bytes _, _, _, lends | .absent, _, _, lends | .object _, _, _, lends
  | .keywords (some _), _, _, lends | .sealed _, _, _, lends => lends

theorem completedAll : ∀ (values : List HostValue) (world : World) (held : Multiset Ref),
    base.Lends world (held + HostValue.referencesAll values) →
      base.Lends (HostValue.completedAll values world).2
        (held + HostValue.referencesAll (HostValue.completedAll values world).1)
  | [], _, _, lends => lends
  | value :: values, world, held, lends => by
    rw [HostValue.referencesAll, ← Multiset.coe_add, ← add_assoc, add_right_comm] at lends
    have first := completed value world _ lends
    rw [add_right_comm] at first
    have second := completedAll values _ _ first
    rw [add_assoc, Multiset.coe_add] at second
    exact second

theorem completedEntries : ∀ (entries : List (HostValue × HostValue)) (world : World)
    (held : Multiset Ref), base.Lends world (held + HostValue.referencesEntries entries) →
      base.Lends (HostValue.completedEntries entries world).2
        (held + HostValue.referencesEntries (HostValue.completedEntries entries world).1)
  | [], _, _, lends => lends
  | (key, value) :: entries, world, held, lends => by
    have turned : ∀ one two three : List Ref, held + ((one ++ two ++ three : List Ref) : Multiset Ref)
        = held + three + two + one := by
      intro one two three
      rw [← Multiset.coe_add, ← Multiset.coe_add]
      abel
    rw [HostValue.referencesEntries, turned] at lends
    have first := completed key world _ lends
    rw [add_right_comm] at first
    have second := completed value _ _ first
    rw [add_right_comm held, add_right_comm] at second
    have third := completedEntries entries _ _ second
    show base.Lends _ (held + (_ ++ _ ++ _ : List Ref))
    rw [turned, add_right_comm held, add_right_comm, add_right_comm held]
    exact third

end

/-- What is lent can be told from the cells and what surrounds them. -/
theorem of_cells (lends : base.Lends world refs) {later : World}
    (cells : ∀ ref, later.heap.cell? ref = world.heap.cell? ref)
    (size : world.heap.size ≤ later.heap.size)
    (surroundings : later.surroundings = world.surroundings) : base.Lends later refs where
  kept ref cell present := by rw [cells, lends.kept ref cell present]
  fresh ref cell absent found := lends.fresh ref cell absent (by rwa [← cells])
  size := lends.size.trans size
  within ref member := Nat.lt_of_lt_of_le (lends.within ref member) size
  surroundings := surroundings.trans lends.surroundings

end World.Lends

/-! ## Wrappers that are given up again -/

namespace World

variable {base world : World}

/-- A change that leaves a registry as it is changes nothing. -/
theorem updateRegistry_same {id : RegistryId} {change : Registry → Registry}
    (same : change (world.registry id) = world.registry id) :
    world.updateRegistry id change = world := by
  have unchanged : world.registries.modify id.number change = world.registries := by
    refine Array.ext_getElem? fun index => ?_
    rw [Array.getElem?_modify]
    split
    · rename_i here
      rw [registry, here] at same
      cases found : world.registries[index]? with
      | none => rfl
      | some entry =>
        rw [found, Option.getD_some] at same
        rw [Option.map_some, same]
    · rfl
  rw [updateRegistry, unchanged]

/-- A wrapper that is entered on a roster and taken off again has changed nothing. -/
theorem updateRoster_unlink_pushFront {id : RegistryId}
    (lists : (world.registry id).roster.Lists world.heap.size) :
    (world.updateRegistry id (.updateRoster (·.pushFront world.heap.next))).updateRegistry id
      (.updateRoster (·.unlink world.heap.next)) = world := by
  rw [updateRegistry_updateRegistry]
  refine updateRegistry_same ?_
  by_cases owned : 0 < (world.registry id).owners
  · have back : ((world.registry id).roster.pushFront world.heap.next).unlink world.heap.next =
        (world.registry id).roster := lists.unlink_pushFront (le_refl _)
    rw [Registry.updateRoster_of_owned _ owned]
    rw [Registry.updateRoster_of_owned]
    · dsimp only
      rw [back]
    · exact owned
  · rw [Registry.updateRoster_of_gone _ owned, Registry.updateRoster_of_gone _ owned]

/-- A wrapper that is made of lent references, and is given up again, has changed nothing. -/
theorem untouched_release_enter (tidy : base.Tidy) {registry : RegistryId} {type : Ref}
    {content : Held} {shape : TypeBody} {cell : Cell} (lends : base.Lends world content.references)
    (present : base.heap.cell? type = some cell) (contents : cell.body = .type shape)
    (finalizer : shape.finalizer = some .bridge) (level : Level) (text : String) :
    base.Untouched ((((world.retain type).enter registry type content).note level text).release
      (world.retain type).heap.next) := by
  generalize taken : world.retain type = middle
  have lent : base.Lends middle (content.references + {type}) := by
    rw [← taken]
    exact lends.retain present
  generalize entered : (middle.enter registry type content).note level text = made
  have heap : made.heap = middle.heap.push (.instance type (some (.wrapper registry content))) := by
    rw [← entered]
    rfl
  have found : made.heap.cell? middle.heap.next =
      some ⟨1, .instance type (some (.wrapper registry content))⟩ := by
    rw [heap, Heap.cell?_push_next]
  have typed : made.heap.body type = .type shape := by
    have there := lent.kept type cell present
    have old : type ≠ middle.heap.next := by
      rintro rfl
      rw [Heap.cell?_next] at there
      cases there
    rw [Heap.body, heap, Heap.cell?_push_other _ old, there]
    exact contents
  have lists : (middle.registry registry).roster.Lists middle.heap.size := by
    have same : middle.registries = base.registries := congrArg Prod.fst lent.surroundings
    rw [World.registry, same]
    exact (tidy.lists registry).mono lent.size
  have left : (made.retire middle.heap.next
      (.instance type (some (.wrapper registry content)))).surroundings = middle.surroundings := by
    have retired : (made.retire middle.heap.next
        (.instance type (some (.wrapper registry content)))).surroundings =
          ((middle.updateRegistry registry
            (.updateRoster (·.pushFront middle.heap.next))).updateRegistry registry
              (.updateRoster (·.unlink middle.heap.next))).surroundings := by
      unfold retire finalizeInstance
      dsimp only
      rw [typed]
      dsimp only
      rw [finalizer, ← entered]
      rfl
    rw [retired, updateRoster_unlink_pushFront lists]
  -- with the wrapper gone, what is left to give up is what it had taken
  rw [release, releaseAll_of_last [] found (le_refl _), List.append_nil]
  have gone : base.Lends
      (made.retire middle.heap.next (.instance type (some (.wrapper registry content))))
      (content.references + {type}) := by
    refine lent.of_cells (fun other => ?_) ?_ left
    · rw [heap_retire, Heap.cell?_put _ found, heap, Heap.cell?_push]
      split
      · rename_i same
        rw [same, Heap.cell?_next]
      · rfl
    · rw [heap_retire, Heap.size_put, heap, Heap.size_push]
      exact Nat.le_succ _
  refine (World.Lends.releaseAll tidy _ ?_).untouched
  rw [zero_add]
  exact gone

end World

end HostBridge
