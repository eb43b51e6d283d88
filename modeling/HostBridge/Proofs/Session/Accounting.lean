import HostBridge.Proofs.Calling.Rejection
import HostBridge.Proofs.Interpreter.Custody
import HostBridge.Proofs.Ownership.Deallocation
import HostBridge.Proofs.Ownership.Ledger
import HostBridge.Proofs.Sharing.Values

/-!
# References are accounted for

Clients make requests, and keep books on the references that they hold: their handles, what they
have detached, and what was let go too late.  At any time, in the middle of a request too, every
object is counted for the entries of the ledger that name it.  An object goes away when the last
entry is struck, and its hook runs then, once.  A structure without cycles goes away when the last
references from outside do.
-/

namespace HostBridge

variable {program : Program} {touch : Permission}

/-! ## How objects go away -/

/-- An object that is there before a step and not after it has lost its last owner. -/
theorem Step.retires {before after : World} {held left : Multiset Ref}
    (step : Step program touch before held after left) {ref : Ref} {cell : Cell}
    (present : before.heap.cell? ref = some cell) (gone : after.heap.cell? ref = none) :
    ∃ rest, held = rest + {ref} ∧ cell.count ≤ 1 ∧ after = before.retire ref cell.body ∧
      left = rest + cell.body.references := by
  have put : ∀ {other : Ref} {old new : Cell}, before.heap.cell? other = some old →
      (before.heap.put other (some new)).cell? ref ≠ none := by
    intro other old new there gone
    rw [Heap.cell?_put _ there] at gone
    split at gone
    · cases gone
    · rw [present] at gone
      cases gone
  have push : ∀ body, (before.heap.push body).cell? ref ≠ none := by
    intro body gone
    rw [Heap.cell?_push] at gone
    split at gone
    · cases gone
    · rw [present] at gone
      cases gone
  have same : after.heap ≠ before.heap := by
    intro same
    rw [same, present] at gone
    cases gone
  cases step with
  | settle settles even => exact (same settles.heap).elim
  | retain other used taken =>
    cases there : before.heap.cell? other with
    | none => exact (same (Heap.retain_of_gone there)).elim
    | some old =>
      rw [World.retain, Heap.retain_of_cell there] at gone
      exact (put there gone).elim
  | lower other there shared given => exact (put there gone).elim
  | forget other absent given => exact (same rfl).elim
  | @retire _ _ other old rest there last given taken =>
    rw [World.heap_retire, Heap.cell?_put none there] at gone
    split at gone
    · rename_i here
      subst here
      rw [present, Option.some.injEq] at there
      subst there
      exact ⟨rest, given, last, rfl, taken⟩
    · rw [present] at gone
      cases gone
  | place body rest plain given taken => exact (push body gone).elim
  | wrap registry type content rest shows given taken => exact (push _ gone).elim
  | rewrite other body there touched becomes even =>
    dsimp only at gone
    rw [Heap.setBody_of_cell body there] at gone
    exact (put there gone).elim
  | enroll handle created shape unknown fresh given => exact (same rfl).elim
  | withdraw registry taken => exact (same rfl).elim
  | scatter registry permitted => exact (same rfl).elim

/-- On the way from one world to another an object goes away: nobody owns it any more when the
only reference to it is given up; it has gone on being what it was.  Its hook runs then, and it
gives up what it owned. -/
def Path.Retires (program : Program) (first : World) (given : Multiset Ref) (second : World)
    (left : Multiset Ref) (ref : Ref) (contents : Body) : Prop :=
  ∃ middle rest cell, Path program Permission.anything first given middle (rest + {ref}) ∧
    middle.heap.cell? ref = some cell ∧ cell.count = 1 ∧ (middle.owed rest).count ref = 0 ∧
    contents.Persists cell.body ∧
    Path program Permission.anything (middle.retire ref cell.body) (rest + cell.body.references)
      second left

/-- What is there at first and not in the end has gone away on the way. -/
theorem Path.retires {first second : World} {given held : Multiset Ref}
    (path : Path program Permission.anything first given second held)
    (sound : first.Sound program given) (tidy : first.Tidy) {ref : Ref} {cell : Cell}
    (present : first.heap.cell? ref = some cell) (gone : second.heap.cell? ref = none) :
    Path.Retires program first given second held ref cell.body := by
  induction path with
  | refl =>
    rw [present] at gone
    cases gone
  | @step middle _ _ _ _ path last ih =>
    cases there : middle.heap.cell? ref with
    | none =>
      obtain ⟨world, rest, old, front, found, one, unowned, persists, back⟩ :=
        ih sound there
      exact ⟨world, rest, old, front, found, one, unowned, persists, .step back last⟩
    | some old =>
      obtain ⟨rest, rfl, single, rfl, rfl⟩ := last.retires there gone
      have positive := (path.tidy tidy).counted ref old there
      have count := (path.sound sound).balanced ref old there
      rw [World.owed, ← add_assoc, Multiset.count_add, Multiset.count_singleton_self] at count
      exact ⟨middle, rest, old, path, there, by omega, by rw [World.owed]; omega,
        path.persists present there, .refl _ _⟩

/-! ## Keeping books -/

/-- A request that is not about detached references. -/
def Request.Ordinary : Request → Prop
  | attach _ _ | dropDetached _ _ => False
  | _ => True

/-- A world that clients come to or come by, and the books that they keep. -/
inductive Holding (program : Program) : World → Books → Prop
  | initial : Holding program World.initial ⟨0, 0, 0⟩
  | request {before after : World} {rest abandoned : Multiset Ref} {detached : Multiset Detached}
      {result : Except Fault (List Ref)} (request : Request) (ordinary : request.Ordinary)
      (holding : Holding program before ⟨request.spent + rest, detached, abandoned⟩)
      (allowed : request.Allowed program before)
      (run : (request.run program).run before = (result, after)) :
      Holding program after ⟨gained result + rest, detached, abandoned⟩
  /-- The world in the middle of an operation, to which the running code holds references. -/
  | meanwhile {before after : World} {handles later abandoned : Multiset Ref}
      {detached : Multiset Detached} (holding : Holding program before ⟨handles, detached, abandoned⟩)
      (path : Path program Permission.anything before handles after later) :
      Holding program after ⟨later, detached, abandoned⟩
  /-- A handle is handed to other threads. -/
  | detach {world : World} {rest abandoned : Multiset Ref} {detached : Multiset Detached}
      (id : InterpreterId) (object : Ref) (created : id.number < world.interpreters.size)
      (holding : Holding program world ⟨{object} + rest, detached, abandoned⟩) :
      Holding program world ⟨rest, {Op.detach id object} + detached, abandoned⟩
  | attach {before after : World} {handles abandoned : Multiset Ref} {rest : Multiset Detached}
      {object : Ref} (thread : Thread) (detached : Detached)
      (holding : Holding program before ⟨handles, {detached} + rest, abandoned⟩)
      (run : (Op.attach thread detached).run before = (.ok object, after)) :
      Holding program after ⟨{object} + handles, rest, abandoned⟩
  | refuse {before after : World} {handles abandoned : Multiset Ref} {rest : Multiset Detached}
      {fault : Fault} (thread : Thread) (detached : Detached)
      (holding : Holding program before ⟨handles, {detached} + rest, abandoned⟩)
      (run : (Op.attach thread detached).run before = (.error fault, after)) :
      Holding program after ⟨handles, rest, before.abandoned thread detached + abandoned⟩
  | drop {before : World} {handles abandoned : Multiset Ref} {rest : Multiset Detached}
      (thread : Thread) (detached : Detached)
      (holding : Holding program before ⟨handles, {detached} + rest, abandoned⟩) :
      Holding program (before.dropDetached thread detached)
        ⟨handles, rest, before.abandoned thread detached + abandoned⟩

namespace Holding

variable {world : World} {books : Books}

/-- A detached reference is let go: it is released, put into the queue or abandoned. -/
theorem reached_dropDetached {handles abandoned : Multiset Ref} {rest : Multiset Detached}
    (thread : Thread) (detached : Detached)
    (before : world.Reached program (Books.held ⟨handles, {detached} + rest, abandoned⟩) ∧
      ∀ item ∈ {detached} + rest, item.interpreter.number < world.interpreters.size) :
    (world.dropDetached thread detached).Reached program
        (Books.held ⟨handles, rest, world.abandoned thread detached + abandoned⟩) ∧
      ∀ item ∈ rest,
        item.interpreter.number < (world.dropDetached thread detached).interpreters.size := by
  obtain ⟨reached, made⟩ := before
  have path : Path program Permission.anything world {detached.object}
      (world.dropDetached thread detached) (world.abandoned thread detached) :=
    World.path_dropDetached (made detached (by simp))
  refine ⟨?_, fun item member =>
    (made item (Multiset.mem_add.mpr (.inr member))).trans_le path.grows.interpreters⟩
  have split : Books.held ⟨handles, {detached} + rest, abandoned⟩ =
      {detached.object} + Books.held ⟨handles, rest, abandoned⟩ := by
    simp only [Books.held, Multiset.map_add, Multiset.map_singleton]
    abel
  have gathered : Books.held ⟨handles, rest, world.abandoned thread detached + abandoned⟩ =
      world.abandoned thread detached + Books.held ⟨handles, rest, abandoned⟩ := by
    simp only [Books.held]
    abel
  rw [split] at reached
  rw [gathered]
  exact reached.trans (path.frame _)

/-- What is in the books is what the client holds, and interpreters that references have been
detached for have been made. -/
theorem reached (honest : program.Honest) (holding : Holding program world books) :
    world.Reached program books.held ∧
      ∀ detached ∈ books.detached, detached.interpreter.number < world.interpreters.size := by
  induction holding with
  | initial => exact ⟨⟨_, _, .initial, .refl _ _⟩, by simp⟩
  | @request before after rest abandoned detached result request ordinary holding allowed run ih =>
    obtain ⟨reached, made⟩ := ih
    have split : Books.held ⟨request.spent + rest, detached, abandoned⟩ =
        request.spent + Books.held ⟨rest, detached, abandoned⟩ := by
      simp only [Books.held, add_assoc]
    rw [split] at reached
    have path := Session.path_request honest (reached.sound honest) allowed run
    have on := reached.trans (path.frame _)
    refine ⟨?_, fun item member => (made item member).trans_le path.grows.interpreters⟩
    simpa only [Books.held, add_assoc] using on
  | @meanwhile before after handles later abandoned detached holding path ih =>
    obtain ⟨reached, made⟩ := ih
    refine ⟨?_, fun item member => (made item member).trans_le path.grows.interpreters⟩
    rw [Books.held, add_assoc] at reached ⊢
    exact reached.trans (path.frame _)
  | @detach world rest abandoned detached id object created holding ih =>
    obtain ⟨reached, made⟩ := ih
    refine ⟨?_, fun item member => ?_⟩
    · have same : Books.held ⟨rest, {Op.detach id object} + detached, abandoned⟩ =
          Books.held ⟨{object} + rest, detached, abandoned⟩ := by
        simp only [Books.held, Multiset.map_add, Multiset.map_singleton, Op.detach]
        abel
      rwa [same]
    · rcases Multiset.mem_add.mp member with new | old
      · rw [Multiset.mem_singleton.mp new]
        exact created
      · exact made item old
  | @attach before after handles abandoned rest object thread detached holding run ih =>
    obtain ⟨reached, made⟩ := ih
    rcases Custody.run_attach before thread detached with ⟨_, _, ran⟩ | ⟨_, ran⟩
    · rw [ran] at run
      cases run
      refine ⟨?_, fun item member => made item (Multiset.mem_add.mpr (.inr member))⟩
      have same : Books.held ⟨{detached.object} + handles, rest, abandoned⟩ =
          Books.held ⟨handles, {detached} + rest, abandoned⟩ := by
        simp only [Books.held, Multiset.map_add, Multiset.map_singleton]
        abel
      rwa [same]
    · rw [ran] at run
      cases run
  | @refuse before after handles abandoned rest fault thread detached holding run ih =>
    rcases Custody.run_attach before thread detached with ⟨_, _, ran⟩ | ⟨_, ran⟩
    · rw [ran] at run
      cases run
    · rw [ran] at run
      cases run
      exact reached_dropDetached thread detached ih
  | drop thread detached holding ih => exact reached_dropDetached thread detached ih

end Holding

/-! ## The account -/

/-- How references are accounted for in a world and the books of its clients. -/
structure World.Reckoned (program : Program) (world : World) (books : Books) : Prop where
  /-- An object that is there is counted for the entries of the ledger that name it, and those that
  are always there once more. -/
  counted : ∀ ref cell, world.heap.cell? ref = some cell → 0 < world.heap.count ref ∧
    world.heap.count ref = ref.pinned + (world.ledger books).countP (·.2 = ref)
  /-- Handles that are given up are struck from the ledger, with what goes away for it. -/
  released : ∀ (refs : List Ref) rest, books.handles = refs + rest → world.Unwinds refs
  /-- Whatever goes on, an object stays what it was or goes away. -/
  departs : ∀ ref cell, world.heap.cell? ref = some cell → ∀ later left,
    Path program Permission.anything world books.held later left →
      (∃ kept, later.heap.cell? ref = some kept ∧ cell.body.Persists kept.body) ∨
        later.heap.cell? ref = none ∧
          Path.Retires program world books.held later left ref cell.body
  /-- What has gone away never comes back, so it does not go away again. -/
  gone : ∀ ref, ref.place < world.heap.size → world.heap.cell? ref = none → ∀ later left,
    Path program Permission.anything world books.held later left → later.heap.cell? ref = none
  /-- A structure without cycles is not there without references from outside. -/
  collected : ∀ among, world.Enclosed books.held among →
    ∀ ref, among ref → world.heap.cell? ref = none
  /-- It goes away when the last handles to it are given up. -/
  emptied : ∀ (refs : List Ref) rest among, books.handles = refs + rest →
    world.Enclosed { books with handles := rest }.held among →
    ∀ ref, among ref → (world.releaseAll refs).heap.cell? ref = none

/-- References are accounted for at any time. -/
theorem Holding.reckoned {world : World} {books : Books} (honest : program.Honest)
    (holding : Holding program world books) : world.Reckoned program books := by
  obtain ⟨reached, _⟩ := holding.reached honest
  have sound := reached.sound honest
  have tidy := reached.tidy honest
  have split : ∀ {refs : List Ref} {rest : Multiset Ref}, books.handles = refs + rest →
      world.Sound program (refs + { books with handles := rest }.held) := by
    intro refs rest given
    have same : books.held = refs + { books with handles := rest }.held := by
      simp only [Books.held, given, add_assoc]
    rwa [← same]
  exact
    { counted := fun ref cell present => by
        have count : world.heap.count ref = cell.count := by rw [Heap.count, present]
        rw [count]
        exact ⟨tidy.counted ref cell present, sound.balanced.count_eq present⟩
      released := fun refs rest given => World.unwinds (split given) tidy
      departs := fun ref cell present later left path => by
        cases found : later.heap.cell? ref with
        | none => exact .inr ⟨rfl, path.retires sound tidy present found⟩
        | some kept => exact .inl ⟨kept, rfl, path.persists present found⟩
      gone := fun ref used absent later left path => path.stays_gone used absent
      collected := fun among enclosed ref member => enclosed.gone sound.balanced tidy member
      emptied := fun refs rest among given enclosed ref member =>
        World.gone_of_enclosed (split given) tidy enclosed member }

set_option maxRecDepth 10000 in
/-- A point is wrapped, and the only reference to it is handed to other threads. -/
theorem Holding.reckoned_detached : ∃ (world : World) (books : Books),
    Holding Figures.program world books ∧ Op.detach ⟨0⟩ ⟨7⟩ ∈ books.detached ∧
    (world.heap.wrapped? ⟨7⟩).map (·.1) = some (.struct [.int 1, .int 2]) ∧
    world.heap.count ⟨7⟩ = 1 ∧ world.Reckoned Figures.program books := by
  generalize played : Request.played Figures.program Figures.wrapping = world
  have facts : (world.interpreters.size, (world.heap.wrapped? ⟨7⟩).map (·.1),
      world.heap.count ⟨7⟩) = (1, some (.struct [.int 1, .int 2]), 1) := by
    subst played
    cbv
  simp only [Prod.mk.injEq] at facts
  obtain ⟨interpreters, wrapped, count⟩ := facts
  have playable : Request.Playable Figures.program (Figures.wrapping ++ []) := by
    rw [List.append_nil]
    exact Figures.playable_wrapping
  have path := playable.path Figures.honest
  rw [List.append_nil, played, Figures.kept_wrapping] at path
  have holding : Holding Figures.program world
      ⟨{⟨7⟩} + Request.kept Figures.program Figures.opening, 0, 0⟩ := .meanwhile .initial path
  have detached := holding.detach ⟨0⟩ ⟨7⟩ (by rw [interpreters]; exact Nat.zero_lt_one)
  exact ⟨world, _, detached, by simp, wrapped, count, Holding.reckoned Figures.honest detached⟩

end HostBridge
