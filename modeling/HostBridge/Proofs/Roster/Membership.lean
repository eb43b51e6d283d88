import Mathlib.Data.List.Nodup
import Mathlib.Data.List.Range
import HostBridge.Proofs.Ownership.Release
import HostBridge.Proofs.Roster.Chain

/-!
# Who is on a roster

The members of a roster are the wrappers of its registry that have been made since
some number of places was used, the latest first: no place is used twice, so the
order of places is the order in which objects were made.  Every step keeps this,
unless it forgets the wrappers of the registry; then it holds anew from there on.
-/

namespace HostBridge

/-! ## Wrappers by age -/

/-- Whether contents are those of a wrapper of a registry. -/
def Body.wraps (registry : RegistryId) : Body → Bool
  | .instance _ (some (.wrapper other _)) => other = registry
  | _ => false

namespace Heap

/-- Whether an object is a wrapper of a registry. -/
def isWrapper (heap : Heap) (registry : RegistryId) (ref : Ref) : Bool :=
  (heap.body ref).wraps registry

/-- The wrappers of a registry made since `mark` places were used, the latest first. -/
def wrappers (heap : Heap) (registry : RegistryId) (mark : Nat) : List Ref :=
  ((List.range heap.size).reverse.map Ref.mk).filter fun ref =>
    mark ≤ ref.place && heap.isWrapper registry ref

variable {heap : Heap} {registry : RegistryId} {mark : Nat} {ref : Ref}

/-- A wrapper is there. -/
theorem exists_of_isWrapper (wrapper : heap.isWrapper registry ref = true) :
    ∃ cell, heap.cell? ref = some cell ∧ cell.body.wraps registry = true := by
  have something : heap.body ref ≠ .none := by
    intro nothing
    rw [isWrapper, nothing] at wrapper
    cases wrapper
  obtain ⟨cell, present, same⟩ := exists_cell_of_body rfl something
  exact ⟨cell, present, by rwa [same]⟩

theorem place_lt_of_isWrapper (wrapper : heap.isWrapper registry ref = true) :
    ref.place < heap.size := by
  obtain ⟨cell, present, _⟩ := exists_of_isWrapper wrapper
  exact place_lt_size present

theorem mem_wrappers :
    ref ∈ heap.wrappers registry mark ↔ mark ≤ ref.place ∧ heap.isWrapper registry ref = true := by
  rw [wrappers, List.mem_filter, Bool.and_eq_true, decide_eq_true_eq]
  refine ⟨And.right, fun since => ⟨?_, since⟩⟩
  refine List.mem_map.mpr ⟨ref.place, ?_, rfl⟩
  rw [List.mem_reverse, List.mem_range]
  exact place_lt_of_isWrapper since.2

/-- A wrapper stands before those that were made earlier. -/
theorem pairwise_wrappers (heap : Heap) (registry : RegistryId) (mark : Nat) :
    (heap.wrappers registry mark).Pairwise fun later earlier => earlier.place < later.place := by
  refine List.Pairwise.filter _ (List.pairwise_map.mpr ?_)
  exact List.pairwise_reverse.mpr List.pairwise_lt_range

theorem nodup_wrappers (heap : Heap) (registry : RegistryId) (mark : Nat) :
    (heap.wrappers registry mark).Nodup :=
  (pairwise_wrappers heap registry mark).imp fun before same =>
    Nat.ne_of_gt before (congrArg Ref.place same)

/-- There are no wrappers that are younger than all objects. -/
theorem wrappers_size (heap : Heap) (registry : RegistryId) :
    heap.wrappers registry heap.size = [] := by
  rw [List.eq_nil_iff_forall_not_mem]
  intro ref inside
  obtain ⟨young, wrapper⟩ := mem_wrappers.mp inside
  exact absurd (place_lt_of_isWrapper wrapper) (Nat.not_lt.mpr young)

theorem wrappers_congr {other : Heap} (size : other.size = heap.size)
    (same : ∀ ref, other.isWrapper registry ref = heap.isWrapper registry ref) :
    other.wrappers registry mark = heap.wrappers registry mark := by
  simp only [wrappers, size, same]

/-- A new wrapper stands in front, any other new object nowhere. -/
theorem wrappers_push (body : Body) (early : mark ≤ heap.size) :
    (heap.push body).wrappers registry mark =
      if body.wraps registry = true then heap.next :: heap.wrappers registry mark
      else heap.wrappers registry mark := by
  have fresh : (heap.push body).isWrapper registry heap.next = body.wraps registry := by
    rw [isWrapper, body_eq (cell?_push_next heap body)]
  have old : ∀ ref ∈ (List.range heap.size).reverse.map Ref.mk,
      (decide (mark ≤ ref.place) && (heap.push body).isWrapper registry ref) =
        (decide (mark ≤ ref.place) && heap.isWrapper registry ref) := by
    intro ref inside
    obtain ⟨place, among, rfl⟩ := List.mem_map.mp inside
    have other : (⟨place⟩ : Ref) ≠ heap.next := by
      intro same
      rw [List.mem_reverse, List.mem_range] at among
      exact absurd (congrArg Ref.place same) (Nat.ne_of_lt among)
    simp only [isWrapper, Heap.body, cell?_push_other body other]
  rw [wrappers, size_push, List.range_succ, List.reverse_append, List.reverse_singleton,
    List.singleton_append, List.map_cons, List.filter_cons, List.filter_congr old]
  have place : (⟨heap.size⟩ : Ref) = heap.next := rfl
  rw [place, fresh, decide_eq_true (show mark ≤ heap.next.place from early), Bool.true_and]
  rfl

/-- A wrapper that goes away leaves its place in the list. -/
theorem wrappers_put_none {cell : Cell} (present : heap.cell? ref = some cell) :
    (heap.put ref none).wrappers registry mark = (heap.wrappers registry mark).erase ref := by
  rw [(nodup_wrappers heap registry mark).erase_eq_filter, wrappers, wrappers, size_put,
    List.filter_filter]
  refine List.filter_congr fun other _ => ?_
  by_cases same : other = ref
  · have gone : (heap.put ref none).isWrapper registry ref = false := by
      simp [isWrapper, Heap.body, cell?_put_same none present, Body.wraps]
    simp [same, gone]
  · have stays : (heap.put ref none).isWrapper registry other = heap.isWrapper registry other := by
      simp only [isWrapper, Heap.body, cell?_put_other heap none (Ne.symm same)]
    simp [same, stays]

end Heap

/-! ## Finalizers -/

namespace World

variable {program : Program} {world : World} {id : RegistryId}

/-- Only a wrapper of a registry is taken off the roster, and it always is. -/
theorem roster_retire (wired : world.Wired program) {ref : Ref} {cell : Cell}
    (present : world.heap.cell? ref = some cell) (alive : 0 < (world.registry id).owners) :
    ((world.retire ref cell.body).registry id).roster =
      if cell.body.wraps id = true then (world.registry id).roster.unlink ref
      else (world.registry id).roster := by
  cases contents : cell.body with
  | «instance» type state =>
    cases state with
    | none =>
      have kept : (world.retire ref (.instance type none)).registry id = world.registry id := by
        unfold retire finalizeInstance
        dsimp only
        split
        · split <;> first | rfl | simp_all
        · rfl
      rw [kept]
      rfl
    | some payload =>
      cases payload with
      | wrapper registry held =>
        obtain ⟨⟨bridged, shape, _, _⟩, _⟩ :=
          wired.wrapper ref type registry held ((Heap.body_eq present).trans contents)
        obtain ⟨typeCell, typeBody, typePresent, typeContents, context⟩ :=
          Heap.bridgedType?_eq_some.mp shape
        have reading := (Heap.body_eq typePresent).trans typeContents
        obtain ⟨_, _, _, _, _, _, _, rfl⟩ := wired.type type typeBody reading bridged context
        have retired : (world.retire ref (.instance type (some (.wrapper registry held)))).registry id
            = (world.updateRegistry registry (.updateRoster (·.unlink ref))).registry id := by
          unfold retire finalizeInstance
          dsimp only
          rw [reading]
          rfl
        rw [retired, roster_updateRoster]
        simp [Body.wraps, alive]
      | _ =>
        have kept : (world.retire ref cell.body).registry id = world.registry id := by
          rw [contents]
          unfold retire finalizeInstance
          dsimp only
          split
          · split <;> first | rfl | simp_all
          · rfl
        rw [contents] at kept
        rw [kept]
        rfl
  | _ => rfl

/-- The roster of a registry is that of its wrappers since `mark` places were used. -/
def Rostered (world : World) (id : RegistryId) (mark : Nat) : Prop :=
  (world.registry id).roster = .ofList (world.heap.wrappers id mark)

/-- Who is on a roster has been made since `mark` places were used and is there. -/
theorem Rostered.mem_members {mark : Nat} (rostered : world.Rostered id mark) {ref : Ref} :
    ref ∈ (world.registry id).roster.members ↔
      mark ≤ ref.place ∧ world.heap.isWrapper id ref = true := by
  rw [rostered, Roster.members_ofList (Heap.nodup_wrappers _ _ _), Heap.mem_wrappers]

end World

/-- What an object is changed into is a wrapper of a registry if and only if it was one. -/
theorem Body.Becomes.wraps {program : Program} {heap : Heap} {old new : Body} {id : RegistryId}
    (becomes : old.Becomes program heap new) : new.wraps id = old.wraps id := by
  cases becomes with
  | @state type payload foreign =>
    cases payload with
    | wrapper registry held => exact absurd rfl (foreign registry held)
    | _ => rfl
  | _ => rfl

namespace Heap

variable {program : Program} {heap : Heap} {id : RegistryId} {ref : Ref} {cell : Cell}

/-- Counting an object leaves wrappers what they are. -/
theorem wraps_put_count (there : heap.cell? ref = some cell) (count : Nat) (other : Ref) :
    ((heap.put ref (some { cell with count })).body other).wraps id =
      (heap.body other).wraps id := by
  by_cases same : other = ref
  · subst same
    rw [body_eq (cell?_put_same _ there), body_eq there]
  · simp only [Heap.body, cell?_put_other _ _ (Ne.symm same)]

/-- So does changing it into what it may become. -/
theorem wraps_setBody (there : heap.cell? ref = some cell) {body : Body}
    (becomes : cell.body.Becomes program heap body) (other : Ref) :
    ((heap.setBody ref body).body other).wraps id = (heap.body other).wraps id := by
  rw [setBody_of_cell body there]
  by_cases same : other = ref
  · subst same
    rw [body_eq (cell?_put_same _ there), body_eq there]
    exact becomes.wraps
  · simp only [Heap.body, cell?_put_other _ _ (Ne.symm same)]

end Heap

/-! ## Steps -/

variable {program : Program} {touch : Permission} {id : RegistryId} {mark : Nat}

/-- The wrappers made since `mark` places were used stand before other members. -/
def World.Fronts (world : World) (id : RegistryId) (mark : Nat) (members : List Ref) : Prop :=
  (world.registry id).roster = .ofList (world.heap.wrappers id mark ++ members)

theorem World.Rostered.iff_fronts {world : World} :
    world.Rostered id mark ↔ world.Fronts id mark [] := by
  rw [World.Rostered, World.Fronts, List.append_nil]

/-- The roster is the same, and so are the wrappers. -/
theorem World.Fronts.same {before after : World} {members : List Ref}
    (fronts : before.Fronts id mark members)
    (roster : (after.registry id).roster = (before.registry id).roster)
    (size : after.heap.size = before.heap.size)
    (bodies : ∀ ref, (after.heap.body ref).wraps id = (before.heap.body ref).wraps id) :
    after.Fronts id mark members := by
  rw [World.Fronts, roster, fronts, Heap.wrappers_congr size bodies]

/-- Wrappers are none of the members that were made before them. -/
theorem Heap.nodup_wrappers_append (heap : Heap) {members : List Ref} (distinct : members.Nodup)
    (early : ∀ ref ∈ members, ref.place < mark) : (heap.wrappers id mark ++ members).Nodup := by
  refine List.nodup_append.mpr ⟨heap.nodup_wrappers id mark, distinct, ?_⟩
  rintro ref inside _ outside rfl
  exact absurd (early ref outside) (Nat.not_lt.mpr (mem_wrappers.mp inside).1)

/-- A wrapper that goes away is taken off; the other members stay behind those that are left. -/
theorem World.Fronts.retire {world : World} {members : List Ref}
    (fronts : world.Fronts id mark members) (wired : world.Wired program) {ref : Ref} {cell : Cell}
    (there : world.heap.cell? ref = some cell) (alive : 0 < (world.registry id).owners)
    (distinct : members.Nodup) (older : ∀ ref ∈ members, ref.place < mark)
    (behind : ref ∉ members) : (world.retire ref cell.body).Fronts id mark members := by
  rw [World.Fronts, World.roster_retire wired there alive, World.heap_retire,
    Heap.wrappers_put_none there, fronts]
  have whole : (world.heap.wrappers id mark ++ members).Nodup :=
    world.heap.nodup_wrappers_append distinct older
  have erased : (world.heap.wrappers id mark ++ members).erase ref =
      (world.heap.wrappers id mark).erase ref ++ members := by
    rw [List.erase_append]
    split
    · rfl
    · rename_i outside
      rw [List.erase_of_not_mem outside, List.erase_of_not_mem behind]
  split
  · rw [← erased]
    exact Roster.unlink_ofList ref whole
  · rename_i other
    rw [List.erase_of_not_mem]
    intro inside
    refine other ?_
    rw [← Heap.body_eq there]
    exact (Heap.mem_wrappers.mp inside).2

/-- A wrapper that is made is the first on the roster of its registry. -/
theorem World.Fronts.enter {world : World} {members : List Ref}
    (fronts : world.Fronts id mark members) (registry : RegistryId) (type : Ref) (content : Held)
    (alive : 0 < (world.registry id).owners) (early : mark ≤ world.heap.size)
    (distinct : members.Nodup) (older : ∀ ref ∈ members, ref.place < mark) :
    (world.enter registry type content).Fronts id mark members := by
  have wrappers : ((world.enter registry type content).heap).wrappers id mark = _ :=
    Heap.wrappers_push (.instance type (some (.wrapper registry content))) early
  have longer : ((world.enter registry type content).heap.wrappers id mark ++ members).Nodup :=
    Heap.nodup_wrappers_append _ distinct older
  rw [World.Fronts]
  by_cases same : registry = id
  · subst same
    rw [if_pos (by simp [Body.wraps])] at wrappers
    have entered : ((world.enter registry type content).registry registry).roster =
        (world.registry registry).roster.pushFront world.heap.next := by
      exact ((world.place _).2.roster_updateRoster registry registry _).trans
        (if_pos ⟨rfl, alive⟩)
    rw [wrappers, List.cons_append] at longer ⊢
    rw [entered, fronts, Roster.pushFront_ofList longer]
  · rw [if_neg (by simp [Body.wraps, same])] at wrappers
    have kept : (world.enter registry type content).registry id = world.registry id :=
      World.registry_updateRegistry_other _ _ same
    rw [kept, wrappers]
    exact fronts

/-- Every step that does not forget the wrappers of a registry keeps its roster right, with other
members behind those wrappers if these are there for good. -/
theorem Step.fronts {before after : World} {held left : Multiset Ref} {members : List Ref}
    (step : Step program touch before held after left) (spared : ¬touch.rosters id)
    (wired : before.Wired program) (alive : 0 < (before.registry id).owners)
    (early : mark ≤ before.heap.size) (distinct : members.Nodup)
    (older : ∀ ref ∈ members, ref.place < mark)
    (stay : ∀ ref ∈ members, before.heap.holds ref = true → after.heap.holds ref = true)
    (fronts : before.Fronts id mark members) : after.Fronts id mark members := by
  cases step with
  | settle settles even =>
    exact fronts.same (settles.roster id) (by rw [settles.heap]) fun ref => by rw [settles.heap]
  | retain ref used taken =>
    refine fronts.same rfl (Heap.size_retain _ _) fun other => ?_
    exact congrArg (Body.wraps id) (Heap.body_congr (before.heap.body_cell?_retain ref other))
  | lower ref there shared given =>
    exact fronts.same rfl (Heap.size_put _ _ _) (Heap.wraps_put_count there _)
  | forget ref gone given => exact fronts
  | @retire _ _ ref cell rest there last given taken =>
    refine fronts.retire wired there alive distinct older fun inside => ?_
    have kept := stay ref inside (by simp [Heap.holds, there])
    rw [World.heap_retire, Heap.holds, Heap.cell?_put_same none there] at kept
    cases kept
  | place body rest plain given taken =>
    have other : ¬body.wraps id = true := by
      unfold Body.wraps
      split
      · exact plain.elim
      · simp
    have same : (before.heap.push body).wrappers id mark = before.heap.wrappers id mark := by
      rw [Heap.wrappers_push body early, if_neg other]
    exact fronts.trans (congrArg (fun front => Roster.ofList (front ++ members)) same.symm)
  | wrap registry type content rest shows given taken =>
    exact fronts.enter registry type content alive early distinct older
  | rewrite ref body there touched becomes even =>
    exact fronts.same rfl (Heap.size_setBody _ _ _) (Heap.wraps_setBody there becomes)
  | @enroll _ _ bridged handle created' shape unknown fresh given =>
    exact fronts.same (World.read_updateRegistry Registry.roster before _ id fun _ => rfl) rfl
      fun _ => rfl
  | withdraw registry taken =>
    exact fronts.same (World.read_updateRegistry Registry.roster before _ id fun _ => rfl) rfl
      fun _ => rfl
  | scatter registry owners permitted =>
    have other : registry ≠ id := fun same => spared (same ▸ permitted)
    exact fronts.same (congrArg Registry.roster (World.registry_updateRegistry_other _ _ other))
      rfl fun _ => rfl

/-- A registry whose wrappers are not forgotten stays alive. -/
theorem Step.lives {before after : World} {held left : Multiset Ref}
    (step : Step program touch before held after left) (spared : ¬touch.rosters id)
    (alive : 0 < (before.registry id).owners) : 0 < (after.registry id).owners := by
  cases step with
  | settle settles even => exact settles.lives id alive
  | retain | lower | forget | place | rewrite => exact alive
  | retire ref rest there last given taken =>
    rwa [World.read_retire Registry.owners (fun _ _ => rfl)]
  | wrap registry type content rest shows given taken =>
    rw [World.enter, World.read_updateRegistry Registry.owners _ _ _ (Registry.owners_updateRoster _)]
    exact alive
  | @enroll _ _ bridged handle created shape unknown fresh given =>
    have same : ((before.updateRegistry bridged.registry (.enroll handle bridged)).registry id).owners
        = (before.registry id).owners :=
      World.read_updateRegistry Registry.owners before _ id fun _ => rfl
    rwa [same]
  | withdraw registry taken =>
    have same := World.owners_withoutTypes before registry id
    rwa [same]
  | scatter registry owners permitted =>
    have other : registry ≠ id := fun same => spared (same ▸ permitted)
    rwa [World.registry_updateRegistry_other _ _ other]

theorem Path.lives {first second : World} {given held : Multiset Ref}
    (path : Path program touch first given second held) (spared : ¬touch.rosters id)
    (alive : 0 < (first.registry id).owners) : 0 < (second.registry id).owners := by
  induction path with
  | refl => exact alive
  | step _ last ih => exact Step.lives last spared ih

/-- The roster of a registry without owners is out of reach. -/
theorem Step.roster_of_gone {before after : World} {held left : Multiset Ref}
    (step : Step program touch before held after left) (spared : ¬touch.rosters id)
    (gone : ¬0 < (before.registry id).owners) :
    (after.registry id).roster = (before.registry id).roster := by
  cases step with
  | settle settles even => exact settles.roster id
  | retain | lower | forget | place | rewrite => rfl
  | @retire _ _ ref cell rest there last given taken =>
    rcases before.roster_retire_cases ref cell.body id with same | ⟨alive, _⟩
    · exact same
    · exact absurd alive gone
  | wrap registry type content rest shows given taken =>
    exact ((before.place _).2.roster_updateRoster registry id _).trans
      (if_neg fun reached => gone reached.2)
  | enroll | withdraw => exact World.read_updateRegistry Registry.roster before _ id fun _ => rfl
  | scatter registry owners permitted =>
    have other : registry ≠ id := fun same => spared (same ▸ permitted)
    rw [World.registry_updateRegistry_other _ _ other]

theorem Path.roster_of_gone {first second : World} {given held : Multiset Ref}
    (path : Path program touch first given second held) (spared : ¬touch.rosters id)
    (gone : ¬0 < (second.registry id).owners) :
    (second.registry id).roster = (first.registry id).roster := by
  induction path with
  | refl => rfl
  | step _ last ih =>
    have earlier := fun alive => gone (last.lives spared alive)
    rw [last.roster_of_gone spared earlier, ih earlier]

/-- The roster of a registry stays right along a path that does not forget its wrappers. -/
theorem Path.rostered {first second : World} {given held frame : Multiset Ref}
    (path : Path program touch first given second held) (spared : ¬touch.rosters id)
    (sound : first.Sound program (given + frame)) (alive : 0 < (first.registry id).owners)
    (early : mark ≤ first.heap.size) (rostered : first.Rostered id mark) :
    second.Rostered id mark := by
  rw [World.Rostered.iff_fronts] at rostered ⊢
  induction path with
  | refl => exact rostered
  | step path last ih =>
    have grown := path.grows
    exact last.fronts spared ((path.frame frame).sound sound).wired
      (path.lives spared alive) (early.trans grown.places) .nil (by simp)
      (by simp) (ih sound)

end HostBridge
