import HostBridge.Proofs.Ownership.Deallocation
import HostBridge.Proofs.Roster.History
import HostBridge.Proofs.Roster.Membership
import HostBridge.Proofs.Session.Reachable

/-!
# Attendance

Whoever is on a roster is a wrapper of its registry that is there.  A wrapper that goes away has
left before: while its registry has an owner its hook takes it off, and the roster of a registry
that has no owner any more is empty.  One step at a time, this holds whatever is done.
-/

namespace HostBridge

/-! ## Whom a roster leads to -/

namespace Roster

/-- A roster leads to somebody from its front, or from whoever has a neighbour. -/
def LeadsTo (roster : Roster) (ref : Ref) : Prop :=
  roster.first = some ref ∨
    ∃ other, roster.previous other = some ref ∨ roster.next other = some ref

/-- The roster of a list leads to its members only, wherever one starts. -/
theorem mem_of_leadsTo {members : List Ref} {ref : Ref} (leads : (ofList members).LeadsTo ref) :
    ref ∈ members := by
  rcases leads with first | ⟨other, leads⟩
  · exact List.mem_of_head? first
  by_cases inside : other ∈ members
  · obtain ⟨front, rest, rfl, outside⟩ := List.eq_append_cons_of_mem inside
    have known : (ofList (front ++ other :: rest)).link other =
        ⟨front.getLast?, rest.head?, true⟩ := chain_append_cons outside
    rcases leads with before | behind
    · have last := (congrArg RosterLink.previous known).symm.trans before
      exact List.mem_append_left _ (List.mem_of_getLast? last)
    · have head := (congrArg RosterLink.next known).symm.trans behind
      exact List.mem_append_right _ (List.mem_cons_of_mem _ (List.mem_of_head? head))
  · have detached : (ofList members).link other = .detached := chain_of_notMem inside
    rcases leads with before | behind
    · cases (congrArg RosterLink.previous detached).symm.trans before
    · cases (congrArg RosterLink.next detached).symm.trans behind

end Roster

namespace World

/-- The roster of a registry is that of a list of its wrappers, which are there. -/
structure Seats (world : World) (id : RegistryId) (members : List Ref) : Prop where
  roster : (world.registry id).roster = .ofList members
  distinct : members.Nodup
  there : ∀ ref ∈ members, world.heap.isWrapper id ref = true

/-- And there is nobody on it if the registry has no owner. -/
structure Attends (world : World) (id : RegistryId) (members : List Ref) : Prop
    extends world.Seats id members where
  gone : ¬0 < (world.registry id).owners → members = []

/-- Every roster is a chain, and whoever it leads to, or is linked, is a wrapper of its registry
that is there. -/
structure Seated (world : World) : Prop where
  chains : ∀ id, ∃ members, (world.registry id).roster.Chains members
  leads : ∀ id ref, (world.registry id).roster.LeadsTo ref → world.heap.isWrapper id ref = true
  linked : ∀ id ref, (world.registry id).roster.linked ref = true →
    world.heap.isWrapper id ref = true

theorem seated_of_seats {world : World} (seats : ∀ id, ∃ members, world.Seats id members) :
    world.Seated where
  chains id := by
    obtain ⟨members, roster, distinct, _⟩ := seats id
    exact ⟨members, roster ▸ Roster.chains_ofList distinct⟩
  leads id ref leads := by
    obtain ⟨members, roster, _, there⟩ := seats id
    rw [roster] at leads
    exact there ref (Roster.mem_of_leadsTo leads)
  linked id ref linked := by
    obtain ⟨members, roster, _, there⟩ := seats id
    rw [roster] at linked
    exact there ref (Roster.linked_chain.mp linked)

end World

/-! ## Steps -/

namespace World

variable {program : Program} {before after world : World} {id : RegistryId} {members : List Ref}

/-- The roster is the same, and its members are there still. -/
theorem Attends.same (attends : before.Attends id members)
    (roster : (after.registry id).roster = (before.registry id).roster)
    (lives : 0 < (before.registry id).owners → 0 < (after.registry id).owners)
    (stay : ∀ ref ∈ members, before.heap.isWrapper id ref = true →
      after.heap.isWrapper id ref = true) : after.Attends id members where
  roster := roster.trans attends.roster
  distinct := attends.distinct
  there ref member := stay ref member (attends.there ref member)
  gone dead := attends.gone fun alive => dead (lives alive)

/-- The roster and the owners are the same, and the members are there still. -/
theorem Attends.kept (attends : before.Attends id members)
    (roster : (after.registry id).roster = (before.registry id).roster)
    (owners : (after.registry id).owners = (before.registry id).owners)
    (stay : ∀ ref, before.heap.isWrapper id ref = true → after.heap.isWrapper id ref = true) :
    after.Attends id members :=
  attends.same roster (by rw [owners]; exact fun alive => alive) fun ref _ => stay ref

/-- The registry is the same, and all contents are what they were. -/
theorem Attends.of_bodies (attends : before.Attends id members)
    (registry : after.registry id = before.registry id)
    (bodies : ∀ ref, (after.heap.body ref).wraps id = (before.heap.body ref).wraps id) :
    after.Attends id members :=
  attends.kept (congrArg Registry.roster registry) (congrArg Registry.owners registry)
    fun ref wrapper => (bodies ref).trans wrapper

/-- The hook of an object that is to go away takes it off: only a wrapper is on a roster, and
only while the registry has an owner. -/
theorem Attends.deallocate (wired : world.Wired program) {ref : Ref} {cell : Cell}
    (present : world.heap.cell? ref = some cell) (attends : world.Attends id members) :
    (world.deallocate ⟨ref, cell.body⟩).Attends id (members.erase ref) := by
  have same : (world.deallocate ⟨ref, cell.body⟩).registry id =
      (world.retire ref cell.body).registry id := by
    rw [retire_eq]
    rfl
  have owners : ((world.deallocate ⟨ref, cell.body⟩).registry id).owners =
      (world.registry id).owners := by
    rw [same, read_retire Registry.owners (fun _ _ => rfl)]
  by_cases taken : 0 < (world.registry id).owners ∧ cell.body.wraps id = true
  · have roster := roster_retire wired present taken.1
    rw [if_pos taken.2, attends.roster, Roster.unlink_ofList ref attends.distinct] at roster
    refine ⟨⟨by rw [same, roster], attends.distinct.erase ref, fun other member => ?_⟩, ?_⟩
    · rw [heap_deallocate]
      exact attends.there other (List.mem_of_mem_erase member)
    · exact fun dead => absurd (owners ▸ taken.1) dead
  · have outside : ref ∉ members := by
      intro inside
      refine taken ⟨?_, ?_⟩
      · by_contra dead
        rw [attends.gone dead] at inside
        cases inside
      · rw [← Heap.body_eq present]
        exact attends.there ref inside
    have kept : ((world.retire ref cell.body).registry id).roster = (world.registry id).roster := by
      rcases world.roster_retire_cases ref cell.body id with kept | ⟨alive, _⟩
      · exact kept
      · rw [roster_retire wired present alive, if_neg fun wraps => taken ⟨alive, wraps⟩]
    rw [List.erase_of_not_mem outside]
    exact attends.kept (by rw [same, kept]) owners fun other wrapper => by rwa [heap_deallocate]

/-- And then it goes away. -/
theorem Attends.retire (wired : world.Wired program) {ref : Ref} {cell : Cell}
    (present : world.heap.cell? ref = some cell) (attends : world.Attends id members) :
    (world.retire ref cell.body).Attends id (members.erase ref) := by
  have vacated := attends.deallocate wired present
  rw [retire_eq]
  refine vacated.same rfl (fun alive => alive) fun other member wrapper => ?_
  have apart : other ≠ ref := ((attends.distinct.mem_erase_iff).mp member).1
  rw [heap_deallocate] at wrapper
  rwa [Heap.isWrapper, Heap.body, Heap.cell?_put_other world.heap none apart.symm]

/-- A new object leaves those who are on a roster where they are. -/
theorem isWrapper_push {heap : Heap} (body : Body) {ref : Ref}
    (wrapper : heap.isWrapper id ref = true) : (heap.push body).isWrapper id ref = true := by
  have old : ref ≠ heap.next := by
    rintro rfl
    exact absurd (Heap.place_lt_of_isWrapper wrapper) (Nat.lt_irrefl heap.size)
  rwa [Heap.isWrapper, Heap.body, Heap.cell?_push_other body old]

/-- A new wrapper enters at the front, if the registry has an owner. -/
theorem Attends.enter (attends : world.Attends id members) (registry : RegistryId) (type : Ref)
    (content : Held) : ∃ more, (world.enter registry type content).Attends id more := by
  have owners : ((world.enter registry type content).registry id).owners =
      (world.registry id).owners :=
    (world.place _).2.read_updateRegistry Registry.owners registry id
      (Registry.owners_updateRoster _)
  have roster := (world.place (.instance type (some (.wrapper registry content)))).2.roster_updateRoster
    registry id (·.pushFront world.heap.next)
  by_cases taken : registry = id ∧ 0 < (world.registry id).owners
  · obtain ⟨rfl, alive⟩ := taken
    have outside : world.heap.next ∉ members := fun inside =>
      absurd (Heap.place_lt_of_isWrapper (attends.there _ inside)) (Nat.lt_irrefl _)
    have longer : (world.heap.next :: members).Nodup :=
      List.nodup_cons.mpr ⟨outside, attends.distinct⟩
    refine ⟨world.heap.next :: members, ⟨?_, longer, fun ref member => ?_⟩, ?_⟩
    · refine roster.trans ((if_pos ⟨rfl, alive⟩).trans ?_)
      show (world.registry registry).roster.pushFront _ = _
      rw [attends.roster, Roster.pushFront_ofList longer]
    · rcases List.mem_cons.mp member with rfl | old
      · show (world.heap.push _).isWrapper registry world.heap.next = true
        rw [Heap.isWrapper, Heap.body_eq (Heap.cell?_push_next world.heap _)]
        simp [Body.wraps]
      · exact isWrapper_push _ (attends.there ref old)
    · exact fun dead => absurd (owners ▸ alive) dead
  · exact ⟨members, attends.kept (roster.trans (if_neg taken)) owners
      fun ref wrapper => isWrapper_push _ wrapper⟩

end World

variable {program : Program} {touch : Permission} {before after : World} {held left : Multiset Ref}
  {id : RegistryId} {members : List Ref}

/-- Every step leaves those on a roster who are there. -/
theorem Step.attends (step : Step program touch before held after left)
    (wired : before.Wired program) (attends : before.Attends id members) :
    ∃ later, after.Attends id later := by
  cases step with
  | settle settles even =>
    exact ⟨members, attends.same (settles.roster id) (settles.lives id)
      fun ref _ wrapper => by rwa [settles.heap]⟩
  | retain ref used taken =>
    exact ⟨members, attends.of_bodies rfl fun other =>
      congrArg (Body.wraps id) (Heap.body_congr (before.heap.body_cell?_retain ref other))⟩
  | lower ref there shared given =>
    exact ⟨members, attends.of_bodies rfl (Heap.wraps_put_count there _)⟩
  | forget ref gone given => exact ⟨members, attends⟩
  | retire ref rest there last given taken => exact ⟨_, attends.retire wired there⟩
  | place body rest plain given taken =>
    exact ⟨members, attends.kept rfl rfl fun ref wrapper => World.isWrapper_push body wrapper⟩
  | wrap registry type content rest shows given taken => exact attends.enter registry type content
  | rewrite ref body there touched becomes even =>
    exact ⟨members, attends.of_bodies rfl (Heap.wraps_setBody there becomes)⟩
  | @enroll _ _ bridged handle created shape unknown fresh given =>
    exact ⟨members, attends.kept (World.read_updateRegistry Registry.roster before _ id fun _ => rfl)
      (World.read_updateRegistry Registry.owners before _ id fun _ => rfl)
      fun _ wrapper => wrapper⟩
  | withdraw registry taken =>
    exact ⟨members, attends.kept (World.read_updateRegistry Registry.roster before _ id fun _ => rfl)
      (before.owners_withoutTypes registry id) fun _ wrapper => wrapper⟩
  | scatter registry owners permitted =>
    rcases before.registry_updateRegistry registry id (.scattered owners) with same | ⟨_, same⟩
    · exact ⟨members, attends.of_bodies same fun _ => rfl⟩
    · refine ⟨[], ⟨?_, .nil, fun _ member => by cases member⟩, fun _ => rfl⟩
      rw [same, Registry.scattered, attends.roster]
      exact Roster.detachAll_ofList attends.distinct

/-- So does a path. -/
theorem Path.attends (path : Path program touch before held after left)
    (sound : before.Sound program held) (attends : before.Attends id members) :
    ∃ later, after.Attends id later := by
  induction path with
  | refl => exact ⟨members, attends⟩
  | step front last ih =>
    obtain ⟨between, there⟩ := ih sound
    exact last.attends (front.sound sound).wired there

theorem World.attends_initial (id : RegistryId) : World.initial.Attends id [] := by
  have none : World.initial.registry id = .empty := by simp [World.registry, World.initial]
  exact ⟨⟨by rw [none]; rfl, .nil, fun _ member => by cases member⟩, fun _ => rfl⟩

/-- Whoever is on a roster is there in all worlds that sessions reach. -/
theorem Session.attends (honest : program.Honest) {world : World}
    (session : Session program world held) (id : RegistryId) :
    ∃ members, world.Attends id members := by
  induction session with
  | initial => exact ⟨[], World.attends_initial id⟩
  | @request _ _ rest _ request earlier allowed run ih =>
    obtain ⟨members, attends⟩ := ih
    have path := (Session.path_request honest (earlier.sound honest) allowed run).frame rest
    exact path.attends (earlier.sound honest) attends

theorem World.Reached.attends (honest : program.Honest) {world : World}
    (reached : world.Reached program held) (id : RegistryId) :
    ∃ members, world.Attends id members := by
  obtain ⟨start, kept, session, path⟩ := reached
  obtain ⟨members, attends⟩ := session.attends honest id
  exact path.attends (session.sound honest) attends

end HostBridge
