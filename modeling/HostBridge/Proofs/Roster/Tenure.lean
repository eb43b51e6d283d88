import HostBridge.Proofs.Roster.Clearing
import HostBridge.Proofs.Roster.Membership
import HostBridge.Proofs.Sharing.Values

/-!
# Accounts of live wrappers

A registry counts its live wrappers and keeps them on a roster until it is cleared.
`Tenure` follows a registry through a session from when it was made on, for as long
as something keeps it alive, and marks each time at which it is cleared.  The main
statement says that at any time the roster lists those wrappers that have been made
since the last mark and have not gone away, each once, and the latest first.
Wrappers from before a mark are never on it again, and their release takes nobody
else off.
-/

namespace HostBridge

/-- Everything may be changed, but the wrappers of one registry are not forgotten. -/
def Permission.sparing (id : RegistryId) : Permission := ⟨fun _ => True, fun other => other ≠ id⟩

/--
A registry in a session, from when it is made on and while it is alive.  The `marks`
are the numbers of places that were used when it was made and each time when it had
been cleared, the latest first.
-/
inductive Tenure (program : Program) (id : RegistryId) : World → Multiset Ref → List Nat → Prop
  | made {before after : World} {held : Multiset Ref} {result : Except Fault (List Ref)}
      (interpreter : InterpreterId) (session : Session program before held)
      (allowed : (Request.connect interpreter).Allowed program before)
      (run : ((Request.connect interpreter).run program).run before = (result, after))
      (absent : before.registries.size = id.number) (created : id.number < after.registries.size) :
      Tenure program id after (gained result + held) [after.heap.size]
  | kept {before after : World} {rest : Multiset Ref} {result : Except Fault (List Ref)}
      {marks : List Nat} (request : Request)
      (tenure : Tenure program id before (request.spent + rest) marks)
      (allowed : request.Allowed program before)
      (run : (request.run program).run before = (result, after))
      (alive : after.registryAlive id = true) (spared : ¬request.Clears before id) :
      Tenure program id after (gained result + rest) marks
  | cleared {before after : World} {rest : Multiset Ref} {result : Except Fault (List Ref)}
      {marks : List Nat} (request : Request)
      (tenure : Tenure program id before (request.spent + rest) marks)
      (allowed : request.Allowed program before)
      (run : (request.run program).run before = (result, after))
      (alive : after.registryAlive id = true) (clears : request.Clears before id) :
      Tenure program id after (gained result + rest) (after.heap.size :: marks)

/-- What the roster of a registry says about its wrappers, the client holding `held`. -/
structure World.Accounts (world : World) (held : Multiset Ref) (id : RegistryId)
    (marks : List Nat) : Prop where
  /-- As many wrappers are alive as have been made since the last mark and are there. -/
  counted : ∀ interpreter, (Program.liveInstances ⟨interpreter, id⟩).run world =
    (.ok (world.heap.wrappers id (marks.headD 0)).length, world)
  /-- The roster lists just them. -/
  listed : ∀ ref, ref ∈ (world.registry id).roster.members ↔
    marks.headD 0 ≤ ref.place ∧ world.heap.isWrapper id ref = true
  /-- It lists each of them once, the latest first. -/
  ordered : (world.registry id).roster.members.Pairwise fun later earlier =>
    earlier.place < later.place
  /-- A wrapper from before a mark is not listed. -/
  survivors : ∀ mark ∈ marks, ∀ ref : Ref, ref.place < mark →
    ref ∉ (world.registry id).roster.members
  /-- A reference can be released, whatever it is one to: what goes away with it is not
  listed any more, and all others stay. -/
  released : ∀ ref ∈ held,
    ((world.release ref).registry id).roster.members =
        (world.registry id).roster.members.filter (world.release ref).heap.holds ∧
      (world.heap.count ref ≤ 1 → (world.release ref).heap.holds ref = false)

variable {program : Program} {id : RegistryId}

/-! ## Releases -/

namespace World

variable {world : World}

theorem size_releaseAll (world : World) (refs : List Ref) :
    (world.releaseAll refs).heap.size = world.heap.size :=
  observe_releaseAll (fun world => world.heap.size) (fun _ _ _ => Heap.size_put _ _ _)
    (fun world ref body => by rw [heap_retire, Heap.size_put]) world refs

/-- Giving up the last reference to an object makes it go away. -/
theorem holds_release {ref : Ref} (last : world.heap.count ref ≤ 1) :
    (world.release ref).heap.holds ref = false := by
  rw [Heap.holds, Option.isSome_eq_false_iff, Option.isNone_iff_eq_none, release]
  cases present : world.heap.cell? ref with
  | none =>
    rw [releaseAll_of_gone [] present, releaseAll_nil, present]
  | some cell =>
    have single : cell.count ≤ 1 := by simpa [Heap.count, present] using last
    rw [releaseAll_of_last [] present single]
    exact gone_releaseAll _ (by rw [heap_retire, Heap.cell?_put_same none present])

/-- A release leaves the wrappers that do not go away. -/
theorem wrappers_release (program : Program) (world : World) (ref : Ref) (id : RegistryId)
    (mark : Nat) : (world.release ref).heap.wrappers id mark =
      (world.heap.wrappers id mark).filter (world.release ref).heap.holds := by
  have path : Path program Permission.nothing world {ref} (world.release ref) 0 :=
    Op.path_release world ref
  have size : (world.release ref).heap.size = world.heap.size := size_releaseAll world [ref]
  rw [Heap.wrappers, Heap.wrappers, List.filter_filter, size]
  refine List.filter_congr fun other _ => ?_
  cases found : (world.release ref).heap.cell? other with
  | none => simp [Heap.isWrapper, Heap.body, Heap.holds, found, Body.wraps]
  | some later =>
    have used : other.place < world.heap.size := by
      rw [← size]
      exact Heap.place_lt_size found
    obtain ⟨cell, present⟩ := path.present used found
    have same := path.same_body present (fun touched => touched) found
    rw [Heap.isWrapper, Heap.isWrapper, Heap.body_eq found, Heap.body_eq present, same]
    simp [Heap.holds, found]

end World

/-! ## The life of a registry -/

/-- A registry that is made has two owners and nothing else. -/
theorem Program.registry_connect {before : World} {interpreter : InterpreterId}
    (absent : before.registries.size = id.number)
    (created : id.number < ((Program.connect interpreter).run before).2.registries.size) :
    ((Program.connect interpreter).run before).2.registry id =
    { Registry.empty with owners := 2 } := by
  rw [connect, Operation.run_bind_of_ok (Op.run_interpreter before interpreter)] at created ⊢
  cases bridged : (before.interpreter interpreter).extensions.bridge with
  | some registry =>
    rw [bridged] at created
    have size : before.registries.size = (before.updateRegistry registry fun entry =>
        { entry with owners := entry.owners + 1 }).registries.size :=
      (World.size_registries_updateRegistry before registry _).symm
    rw [← absent, size] at created
    exact absurd created (Nat.lt_irrefl _)
  | none =>
    have pushed : (before.registries.push { Registry.empty with owners := 2 })[id.number]? =
        some { Registry.empty with owners := 2 } := by
      rw [← absent, Array.getElem?_push_size]
    show World.registry
      { before with registries := before.registries.push { Registry.empty with owners := 2 } } id = _
    rw [World.registry, pushed]
    rfl

namespace Tenure

variable {world : World} {held : Multiset Ref} {marks : List Nat}

/-- The life of a registry is part of a session. -/
theorem session (tenure : Tenure program id world held marks) : Session program world held := by
  induction tenure with
  | made interpreter session allowed run =>
    refine .request (.connect interpreter) ?_ allowed run
    show Session program _ (0 + _)
    rwa [zero_add]
  | kept request _ allowed run _ _ ih => exact .request request ih allowed run
  | cleared request _ allowed run _ _ ih => exact .request request ih allowed run

theorem alive (tenure : Tenure program id world held marks) :
    0 < (world.registry id).owners := by
  cases tenure with
  | @made before after _ _ interpreter _ _ run absent created =>
    have ended : (((Request.connect interpreter).run program).run before).2 =
        ((Program.connect interpreter).run before).2 := Request.run_after
    rw [run] at ended
    subst ended
    rw [Program.registry_connect absent created]
    exact Nat.succ_pos 1
  | kept _ _ _ _ alive => exact of_decide_eq_true alive
  | cleared _ _ _ _ alive => exact of_decide_eq_true alive

/-- The roster is that of the wrappers since the last mark, which is the greatest. -/
theorem rostered (honest : program.Honest) (confined : program.Confined (Permission.sparing id))
    (tenure : Tenure program id world held marks) :
    world.Rostered id (marks.headD 0) ∧ (∀ mark ∈ marks, mark ≤ marks.headD 0) ∧
      marks.headD 0 ≤ world.heap.size := by
  induction tenure with
  | @made before after _ _ interpreter session allowed run absent created =>
    refine ⟨?_, by simp, le_refl _⟩
    have ended : (((Request.connect interpreter).run program).run before).2 =
        ((Program.connect interpreter).run before).2 := Request.run_after
    rw [run] at ended
    subst ended
    rw [World.Rostered, List.headD_cons, Heap.wrappers_size]
    exact congrArg Registry.roster (Program.registry_connect absent created)
  | @kept before after rest result marks request tenure allowed run alive spared ih =>
    obtain ⟨rostered, greatest, early⟩ := ih
    have sound := tenure.session.sound honest
    have covered : request.CoveredBy program before (Permission.sparing id) := by
      refine ⟨?_, ?_⟩
      · rintro registry clears rfl
        exact spared clears
      · rintro registry dead rfl
        rw [run, alive] at dead
        cases dead
    have path := Session.path_request_within honest confined sound covered allowed run
    have stays : ¬(Permission.sparing id).rosters id := fun other => other rfl
    exact ⟨path.rostered stays sound tenure.alive early rostered, greatest,
      early.trans path.grows.places⟩
  | @cleared before after rest result marks request tenure allowed run alive clears ih =>
    obtain ⟨_, greatest, early⟩ := ih
    have grows := (Session.path_request honest (tenure.session.sound honest) allowed run).grows
    have hollow : after.Hollow id := by
      have ended : ((request.run program).run before).2 = after := by rw [run]
      rw [← ended] at alive ⊢
      exact Request.hollow allowed clears alive ((tenure.session.tidy honest).lists id).listed
    refine ⟨?_, ?_, le_refl _⟩
    · rw [World.Rostered, List.headD_cons, Heap.wrappers_size]
      exact hollow
    · intro mark member
      rcases List.mem_cons.mp member with rfl | old
      · exact le_refl _
      · exact (greatest mark old).trans (early.trans grows.places)

/--
At any time the roster of a registry that is kept alive lists those of its wrappers that
have been made since it was last cleared and have not gone away, each once, the latest
first, and counts them.  Wrappers that have survived a clear are never listed again, and
releasing one takes nothing off the roster but what goes away with it.
-/
theorem accounts (honest : program.Honest) (confined : program.Confined (Permission.sparing id))
    (tenure : Tenure program id world held marks) : world.Accounts held id marks := by
  obtain ⟨rostered, greatest, early⟩ := tenure.rostered honest confined
  have sound := tenure.session.sound honest
  have members : (world.registry id).roster.members = world.heap.wrappers id (marks.headD 0) := by
    rw [rostered, Roster.members_ofList (Heap.nodup_wrappers _ _ _)]
  refine ⟨fun interpreter => ?_, fun ref => rostered.mem_members, ?_, ?_, ?_⟩
  · show (Except.ok (world.registry id).roster.size, world) = _
    rw [rostered]
    rfl
  · rw [members]
    exact Heap.pairwise_wrappers _ _ _
  · intro mark member ref old inside
    have young := (rostered.mem_members.mp inside).1
    exact absurd (old.trans_le (greatest mark member)) (Nat.not_lt.mpr young)
  · intro ref given
    obtain ⟨rest, rfl⟩ := Multiset.exists_cons_of_mem given
    rw [← Multiset.singleton_add] at sound
    have path : Path program (Permission.sparing id) world {ref} (world.release ref) 0 :=
      Op.path_release world ref
    have stays : ¬(Permission.sparing id).rosters id := fun other => other rfl
    have later := path.rostered stays sound tenure.alive early rostered
    refine ⟨?_, World.holds_release⟩
    rw [later, Roster.members_ofList (Heap.nodup_wrappers _ _ _), members,
      World.wrappers_release program]

end Tenure

/-! ## Wrappers of figures -/

/-- The life of a registry goes on with a request that hands over nothing. -/
theorem Tenure.played {marks : List Nat} {request : Request} {earlier : List Request}
    (tenure : Tenure program id (Request.played program earlier) (Request.kept program earlier)
      marks)
    (free : request.spent = 0) (allowed : request.Allowed program (Request.played program earlier))
    (alive : (Request.played program (request :: earlier)).registryAlive id = true)
    (spared : ¬request.Clears (Request.played program earlier) id) :
    Tenure program id (Request.played program (request :: earlier))
      (Request.kept program (request :: earlier)) marks :=
  .kept request (by rwa [free, zero_add]) allowed rfl alive spared

namespace Figures

theorem confined (id : RegistryId) : Figures.program.Confined (Permission.sparing id) where
  contents _ := trivial
  nativeFunction _ _ _ _ _ _ := .raise _
  nativeGetter _ _ _ _ _ := .raise _
  nativeSetter _ _ _ _ _ _ := .raise _
  nativeMaker _ _ _ _ _ _ := .raise _
  nativeAllocator _ _ _ _ := .raise _

/-- A point is wrapped, the interpreter ends, and another point is made by a call of the
type. -/
def lifetimes : List Request :=
  [.call ⟨5⟩ [⟨8⟩, ⟨9⟩] none, .create (.int 4), .create (.int 3), .finalize ⟨0⟩,
    .toObject bridge (.struct ⟨0⟩) (.struct [.int 1, .int 2])] ++ opening

/-- The world when `count` of these requests are still to come. -/
def course (count : Nat) : World := Request.played Figures.program (lifetimes.drop count)

set_option maxRecDepth 10000 in
/-- What is there while these requests are made. -/
theorem course_facts :
    ((List.range 8).map fun count => (course count).registryAlive ⟨0⟩) = List.replicate 8 true ∧
    ((course 9).registries.size, (course 8).registries.size, (course 0).heap.size,
      (course 1).heap.size) = (0, 1, 11, 10) ∧
    ((course 4).interpreter ⟨0⟩).owners = 2 ∧
    (((course 4).interpreter ⟨0⟩).finalized, ((course 4).queue ⟨0⟩).canReserve,
      ((course 4).interpreter ⟨0⟩).hooks) = (false, true, [.clearRegistry ⟨0⟩]) ∧
    ((course 0).heap.wrappers ⟨0⟩ 0, ((course 0).registry ⟨0⟩).roster.members) =
      ([⟨10⟩, ⟨7⟩], [⟨10⟩]) := by
  cbv

theorem course_alive : ∀ count < 8, (course count).registryAlive ⟨0⟩ = true := by
  intro count early
  exact List.eq_of_mem_replicate
    (course_facts.1 ▸ List.mem_map_of_mem (List.mem_range.mpr early))

theorem course_clears : (course 4).Clears ⟨0⟩ ⟨0⟩ := by
  obtain ⟨_, _, _, facts, _⟩ := course_facts
  simp only [Prod.mk.injEq] at facts
  obtain ⟨working, reserved, hooked⟩ := facts
  exact ⟨working, reserved, by simp [hooked]⟩

/-- The registry is cleared once. -/
theorem tenure_lifetimes :
    Tenure Figures.program ⟨0⟩ (course 0) (Request.kept Figures.program lifetimes)
      [(course 3).heap.size, (course 8).heap.size] := by
  obtain ⟨⟨⟨⟨started, _, connected⟩, _, made⟩, _, pointed⟩, _, segmented⟩ := playable_opening
  obtain ⟨absent, created, size, earlier⟩ :
      (course 9).registries.size = 0 ∧ (course 8).registries.size = 1 ∧
        (course 0).heap.size = 11 ∧ (course 1).heap.size = 10 := by
    simpa only [Prod.mk.injEq] using course_facts.2.1
  have unborrowed : ∀ {used : Ref → Prop}, ∀ ref ∈ ([] : List Ref), used ref :=
    fun _ member => by cases member
  have connection : Tenure Figures.program ⟨0⟩ (course 8)
      (Request.kept Figures.program (lifetimes.drop 8)) [(course 8).heap.size] :=
    .made ⟨0⟩ started.session connected rfl absent (by
      show 0 < (course 8).registries.size
      rw [created]
      exact Nat.zero_lt_one)
  have exported := ((connection.played rfl made (course_alive 7 (by decide)) not_false).played rfl
    pointed (course_alive 6 (by decide)) not_false).played rfl segmented
    (course_alive 5 (by decide)) not_false
  have wrapped : Tenure Figures.program ⟨0⟩ (course 4)
      (Request.kept Figures.program (lifetimes.drop 4)) [(course 8).heap.size] :=
    exported.played rfl playable_wrapping.2.2 (course_alive 4 (by decide)) not_false
  have owned : 0 < ((course 4).interpreter ⟨0⟩).owners := by
    rw [course_facts.2.2.1]
    exact Nat.zero_lt_two
  have ended : Tenure Figures.program ⟨0⟩ (course 3)
      (Request.kept Figures.program (lifetimes.drop 3))
      [(course 3).heap.size, (course 8).heap.size] := by
    refine .cleared (.finalize ⟨0⟩) ?_ ⟨unborrowed, owned⟩ rfl (course_alive 3 (by decide))
      course_clears
    show Tenure Figures.program ⟨0⟩ (course 4) (0 + _) _
    rw [zero_add]
    exact wrapped
  have third : Tenure Figures.program ⟨0⟩ (course 2)
      (Request.kept Figures.program (lifetimes.drop 2))
      [(course 3).heap.size, (course 8).heap.size] :=
    ended.played rfl ⟨unborrowed, trivial⟩ (course_alive 2 (by decide)) not_false
  have fourth : Tenure Figures.program ⟨0⟩ (course 1)
      (Request.kept Figures.program (lifetimes.drop 1))
      [(course 3).heap.size, (course 8).heap.size] :=
    third.played rfl ⟨unborrowed, trivial⟩ (course_alive 1 (by decide)) not_false
  refine fourth.played rfl ⟨fun ref member => ?_, trivial⟩ (course_alive 0 (by decide)) not_false
  show ref.place < (course 1).heap.size
  rw [earlier]
  have named : ref ∈ ([⟨5⟩, ⟨8⟩, ⟨9⟩] : List Ref) := member
  fin_cases named <;> decide

set_option maxRecDepth 10000 in
/-- The wrapper that is made after the end is listed alone.  The one that was there before
is still held. -/
theorem accounts_lifetimes :
    ∃ held marks, Tenure Figures.program ⟨0⟩ (course 0) held marks ∧
      (course 0).Accounts held ⟨0⟩ marks ∧ Ref.mk 7 ∈ held ∧
      (course 0).heap.wrappers ⟨0⟩ 0 = [⟨10⟩, ⟨7⟩] ∧
      ((course 0).registry ⟨0⟩).roster.members = [⟨10⟩] := by
  refine ⟨_, _, tenure_lifetimes, Tenure.accounts honest (confined ⟨0⟩) tenure_lifetimes,
    ?_, congrArg Prod.fst course_facts.2.2.2.2, congrArg Prod.snd course_facts.2.2.2.2⟩
  have later : Request.kept Figures.program (lifetimes.drop 4) ≤
      Request.kept Figures.program lifetimes := by
    simp only [lifetimes, List.cons_append, List.nil_append, List.drop, Request.kept]
    exact le_add_left (le_add_left (le_add_left (Multiset.le_add_left _ _)))
  refine Multiset.mem_of_le later ?_
  show Ref.mk 7 ∈ Request.kept Figures.program wrapping
  rw [kept_wrapping]
  simp

end Figures

end HostBridge
