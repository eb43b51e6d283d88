import HostBridge.Proofs.Calling.Run
import HostBridge.Proofs.Interpreter.Binding
import HostBridge.Proofs.Interpreter.Ending

/-!
# Batches

A queue keeps the batch that its interpreter was started with, whatever goes through it.  Each time
it is worked off, room for two batches is reserved first, also if the queue is empty.  There is such
room exactly for batches below `2 ^ 59`, and for those at `2 ^ 63` and above whose double wraps
around to a small number.  With any other batch nothing is ever released, calls fail as soon as the
queue is full, and an interpreter that is finalized is marked and no more: its modules keep their
globals, its hooks do not run, and it stays bound to the thread.
-/

namespace HostBridge

open Op

namespace ReleaseQueue

/-- Batches, within a word of 64 bits, for which room can be reserved. -/
def Reservable (batch : Nat) : Prop :=
  batch < 2 ^ 59 ∨ 2 ^ 63 ≤ batch ∧ batch < 2 ^ 63 + 2 ^ 59

theorem canReserve_iff {queue : ReleaseQueue} {batch : Nat} (word : batch < 2 ^ 64)
    (same : queue.batch = max batch 1) : queue.canReserve = true ↔ Reservable batch := by
  rw [canReserve, same, decide_eq_true_iff, Reservable]
  norm_num
  omega

end ReleaseQueue

variable {program : Program} {world : World} {id : InterpreterId}

/-- An interpreter that has ended is bound to no thread. -/
theorem World.Ends.current {after : World} (ends : world.Ends id after) : after.current = none := by
  obtain ⟨_, _, _, _, _, _, closes⟩ := ends
  rw [closes.run]
  rfl

/-- What a call does first: it works a full queue off, and leaves any other one alone. -/
theorem Op.run_drainIfDue (bound : current?.run world = (.ok (some id), world)) :
    drainIfDue.run world =
      if (world.queue id).isDue = true then
        if (world.queue id).canReserve = true then (.ok (), Custody.flushed world id)
        else (.error (.panicked .batchTooLarge), world)
      else (.ok (), world) := by
  rw [drainIfDue, Operation.run_bind_of_ok bound]
  dsimp only
  rw [Operation.run_bind_of_ok (run_world world)]
  split
  · have flushed := Custody.run_flush id world
    rw [drainIfDue.discard]
    split at flushed
    · rename_i room
      rw [Operation.run_bind_of_ok flushed, if_pos room]
      rfl
    · rename_i stuck
      rw [Operation.run_bind_of_error flushed, if_neg stuck]
  · rfl

namespace Custody

variable {custody first second : Custody} {size : Nat}

/-! ## The batch of a queue -/

theorem batch_letGo (created : id.number < custody.world.interpreters.size) (held : List Token)
    (thread : Thread) (token : Token) :
    ((letGo { custody with held } id thread token).world.queue id).batch =
      (custody.world.queue id).batch := by
  rw [letGo_world]
  cases ended : (custody.world.queue id).finished with
  | true =>
    rw [dropDetached_finished ended]
    rfl
  | false =>
    cases thread with
    | owner => rw [dropDetached_owner ended, World.queue_release]
    | foreign => rw [dropDetached_foreign ended, World.queue_setQueue created]

/-- No step changes the batch. -/
theorem Acts.same_batch (acts : Acts id first second)
    (created : id.number < first.world.interpreters.size) :
    (second.world.queue id).batch = (first.world.queue id).batch := by
  cases acts with
  | detach => rfl
  | drop thread token front back held => exact batch_letGo created _ thread token
  | attach thread token front back held run =>
    rcases run_attach first.world thread (Op.detach id token.object) with ⟨_, _, ok⟩ | ⟨_, error⟩
    · rw [ok] at run
      cases run
      rfl
    · rw [error] at run
      cases run
  | refuse thread token front back held run =>
    rw [refuse_eq run]
    exact batch_letGo created _ thread token
  | take =>
    rw [Custody.take, World.queue_setQueue created]
    rfl
  | release token rest next => rw [World.queue_release]
  | mark =>
    rw [Custody.mark, World.queue_updateInterpreter created]
    rfl

/-- So nothing does that goes on for any length of time. -/
theorem Reaches.same_batch (reaches : Reaches program id first second)
    (kept : first.Kept program id) :
    (second.world.queue id).batch = (first.world.queue id).batch := by
  induction reaches with
  | refl => rfl
  | act front acts ih => rw [acts.same_batch (front.kept kept).created, ih]
  | elapse front path same ih =>
    dsimp only
    rw [same, ih]

/-- Whatever happens to detached references, the world is left tidy. -/
theorem Acts.tidy (program : Program) {first second : Custody} (acts : Acts id first second)
    (tidy : first.world.Tidy) : second.world.Tidy := by
  have released : ∀ {world : World} (ref : Ref), world.Tidy → (world.release ref).Tidy := by
    intro world ref tidy
    have path : Path program Permission.nothing world (0 + {ref}) (world.release ref) 0 :=
      .release world ref 0
    exact path.tidy tidy
  have parted : ∀ (thread : Thread) (object : Ref), first.world.Tidy →
      (first.world.dropDetached thread (Op.detach id object)).Tidy := by
    intro thread object tidy
    cases ended : (first.world.queue id).finished with
    | true =>
      rw [dropDetached_finished ended]
      exact tidy.same rfl fun _ => rfl
    | false =>
      cases thread with
      | owner =>
        rw [dropDetached_owner ended]
        exact released object tidy
      | foreign =>
        rw [dropDetached_foreign ended]
        exact tidy.same rfl fun _ => rfl
  cases acts with
  | detach => exact tidy
  | drop thread token front back held =>
    rw [letGo_world]
    exact parted thread token.object tidy
  | attach thread token front back held run =>
    rcases run_attach first.world thread (Op.detach id token.object) with ⟨_, _, ok⟩ | ⟨_, error⟩
    · rw [ok] at run
      cases run
      exact tidy
    · rw [error] at run
      cases run
  | refuse thread token front back held run =>
    rw [refuse_eq run, letGo_world]
    exact parted thread token.object tidy
  | take room => exact tidy.same rfl fun _ => rfl
  | release token rest next => exact released token.object tidy
  | mark => exact tidy.same rfl fun _ => rfl

theorem Reaches.tidy {first second : Custody} (reaches : Reaches program id first second)
    (tidy : first.world.Tidy) : second.world.Tidy := by
  induction reaches with
  | refl => exact tidy
  | act _ acts ih => exact acts.tidy program ih
  | elapse _ path _ ih => exact path.tidy ih

/-! ## What a batch decides -/

/-- All that was pending has been released, in order, and nothing else. -/
def Releases (program : Program) (id : InterpreterId) (custody : Custody) (after : World) : Prop :=
  Reaches program id custody { custody with
    world := after
    pending := []
    released := custody.released ++ custody.pending }

/-- What the batch decides, for an interpreter that was started with it. -/
structure Batched (program : Program) (id : InterpreterId) (size : Nat) (custody : Custody) :
    Prop where
  /-- The batch is kept; one that is zero counts as one. -/
  batch : (custody.world.queue id).batch = max size 1
  queued : (custody.world.queue id).pending = custody.pending.map (·.object)
  /-- A flush releases what is pending and counts it, however much that is. -/
  flush : ReleaseQueue.Reservable size → ∃ after,
    (Op.flush id).run custody.world = (.ok custody.pending.length, after) ∧
      custody.Releases program id after
  /-- It does nothing at all if there is no room, also if nothing is pending. -/
  stuck : ¬ReleaseQueue.Reservable size →
    (Op.flush id).run custody.world = (.error (.panicked .batchTooLarge), custody.world)
  /-- A call leaves a queue alone that is not full. -/
  spared : current?.run custody.world = (.ok (some id), custody.world) →
    custody.pending.length < max size 1 →
      drainIfDue.run custody.world = (.ok (), custody.world)
  /-- It releases all of a full one. -/
  drained : current?.run custody.world = (.ok (some id), custody.world) →
    max size 1 ≤ custody.pending.length → ReleaseQueue.Reservable size → ∃ after,
      drainIfDue.run custody.world = (.ok (), after) ∧ custody.Releases program id after
  /-- Every call fails while the queue is full, if there is no room. -/
  fails : current?.run custody.world = (.ok (some id), custody.world) →
    max size 1 ≤ custody.pending.length → ¬ReleaseQueue.Reservable size →
      ∀ callee positional keywords, (∀ ref ∈ keywords, custody.world.heap.isDict ref = true) →
        (program.call callee positional keywords).run custody.world =
          (.error (.panicked .batchTooLarge), custody.world)
  /-- To finalize releases what is pending, and goes on to the end. -/
  ends : (custody.world.interpreter id).finalized = false → ReleaseQueue.Reservable size →
    ∃ after, (finalize id).run custody.world = (.ok (), after) ∧
      custody.world.Ends id after ∧ after.current = none ∧ (after.queue id).pending = []
  /-- Without room the interpreter is marked, and that is all; it is not finalized again. -/
  marked : (custody.world.interpreter id).finalized = false → ¬ReleaseQueue.Reservable size →
    ∃ after, (finalize id).run custody.world = (.error (.panicked .batchTooLarge), after) ∧
      after.interpreter id = { custody.world.interpreter id with
        finalized := true
        queue := (custody.world.queue id).finish } ∧
      after.heap = custody.world.heap ∧ after.current = custody.world.current ∧
      after.announcements = custody.world.announcements ∧
      (finalize id).run after = (.ok (), after)

theorem Kept.batched (kept : custody.Kept program id) (tidy : custody.world.Tidy)
    (word : size < 2 ^ 64) (same : (custody.world.queue id).batch = max size 1) :
    custody.Batched program id size := by
  have room : ReleaseQueue.Reservable size → (custody.world.queue id).canReserve = true :=
    (ReleaseQueue.canReserve_iff word same).mpr
  have full : ¬ReleaseQueue.Reservable size → ¬(custody.world.queue id).canReserve = true :=
    fun none reserved => none ((ReleaseQueue.canReserve_iff word same).mp reserved)
  have due : (custody.world.queue id).isDue = true ↔ max size 1 ≤ custody.pending.length := by
    rw [ReleaseQueue.isDue, same, kept.queued, List.length_map, decide_eq_true_iff]
  have undrained : current?.run custody.world = (.ok (some id), custody.world) →
      max size 1 ≤ custody.pending.length → ¬ReleaseQueue.Reservable size →
        drainIfDue.run custody.world = (.error (.panicked .batchTooLarge), custody.world) := by
    intro bound many none
    rw [run_drainIfDue bound, if_pos (due.mpr many), if_neg (full none)]
  refine
    { batch := same
      queued := kept.queued
      flush := fun small => ⟨flushed custody.world id, ?_, reaches_flushed kept (room small)⟩
      stuck := fun none => by rw [run_flush, if_neg (full none)]
      spared := fun bound few => ?_
      drained := fun bound many small => ⟨flushed custody.world id, ?_, reaches_flushed kept (room small)⟩
      fails := fun bound many none callee positional keywords dict =>
        Program.run_call_of_undrained dict (undrained bound many none)
      ends := fun working small => ?_
      marked := fun working none => ⟨closing custody.world id, ?_, ?_, rfl, rfl, rfl, ?_⟩ }
  · rw [run_flush, if_pos (room small), kept.queued, List.length_map]
  · rw [run_drainIfDue bound, if_neg (fun reached => Nat.not_le_of_lt few (due.mp reached))]
  · rw [run_drainIfDue bound, if_pos (due.mpr many), if_pos (room small)]
  · obtain ⟨after, ran, ends⟩ := World.exists_ends kept.created working (room small) tidy
    refine ⟨after, ran, ends, ends.current, ?_⟩
    rw [World.queue, ends.entry]
    rfl
  · rw [run_finalize_eq, working, if_neg Bool.false_ne_true, if_neg (full none)]
  · exact World.interpreter_updateInterpreter _ kept.created
  · have done : ((closing custody.world id).interpreter id).finalized = true := by
      rw [closing, World.interpreter_updateInterpreter _ kept.created]
    rw [run_finalize_eq, if_pos done]

end Custody

/-- The batch that an interpreter is started with decides, at any later time and whatever its queue
holds then, how a flush, a call and its end come out. -/
theorem Session.batch_decides (honest : program.Honest) {held : Multiset Ref}
    (session : Session program world held) {configuration : Configuration}
    (word : configuration.batch < 2 ^ 64) {started : World}
    (ran : (start configuration).run world = (.ok (.ok id), started)) {custody : Custody}
    (reaches : Custody.Reaches program id (.opening started held) custody) :
    custody.Batched program id configuration.batch := by
  have later : Session program started held := by
    have begun : Session program started (gained (.ok []) + held) :=
      .request (.start configuration) (by rwa [show (Request.start configuration).spent = 0 from rfl,
        zero_add]) ⟨by simp [Request.borrowed], trivial⟩ (by
          rw [Request.run, Operation.run_bind_of_ok ran]
          rfl)
    rwa [gained, Multiset.coe_nil, zero_add] at begun
  obtain ⟨_, rfl, rfl⟩ := eq_started ran
  have queue : (world.started configuration).queue ⟨world.interpreters.size⟩ =
      .create configuration.batch := by
    rw [World.queue, World.interpreter_started, if_pos rfl]
    rfl
  have kept : (Custody.opening (world.started configuration) held).Kept program
      ⟨world.interpreters.size⟩ := by
    refine ⟨?_, ?_, congrArg ReleaseQueue.pending queue, .refl _, fun _ => rfl⟩
    · show world.interpreters.size < (world.interpreters.push _).size
      rw [Array.size_push]
      exact Nat.lt_succ_self _
    · rw [show (Custody.opening (world.started configuration) held).owners = held by
        simp [Custody.owners, Custody.opening]]
      exact later.sound honest
  have tidy : (world.started configuration).Tidy := later.tidy honest
  refine (reaches.kept kept).batched (reaches.tidy tidy) word ?_
  rw [reaches.same_batch kept]
  exact congrArg ReleaseQueue.batch queue

/-- Another thread lets a reference go that was taken after the start, and a batch of two is not
full yet. -/
theorem Session.batch_decides_pending : ∃ custody : Custody,
    Custody.Reaches Figures.program ⟨0⟩ (.opening (World.initial.started ⟨"", [], 2⟩) 0) custody ∧
      custody.pending = [⟨0, ⟨1⟩⟩] ∧ custody.Batched Figures.program ⟨0⟩ 2 := by
  have ran : (start ⟨"", [], 2⟩).run .initial = (.ok (.ok ⟨0⟩), World.initial.started ⟨"", [], 2⟩) :=
    run_start_of_free rfl rfl
  have used : (⟨1⟩ : Ref).place < (World.initial.started ⟨"", [], 2⟩).heap.size := by decide
  have retained : Custody.Reaches Figures.program ⟨0⟩
      (.opening (World.initial.started ⟨"", [], 2⟩) 0) _ :=
    .elapse (.refl _) (Path.retain used) rfl
  have detached := retained.act (.detach ⟨1⟩ 0 rfl)
  have dropped := detached.act (.drop .foreign ⟨0, ⟨1⟩⟩ [] [] rfl)
  exact ⟨_, dropped, rfl, Session.batch_decides Figures.honest .initial (by decide) ran dropped⟩

/-- With a batch of `2 ^ 60` an interpreter whose queue is empty can neither be flushed nor torn down:
it stays bound, and its main module stays registered. -/
theorem Figures.batch_too_large : ∃ world after,
    (start ⟨"", [], 1152921504606846976⟩).run .initial = (.ok (.ok ⟨0⟩), world) ∧
      (world.queue ⟨0⟩).pending = [] ∧
      (flush ⟨0⟩).run world = (.error (.panicked .batchTooLarge), world) ∧
      (finalize ⟨0⟩).run world = (.error (.panicked .batchTooLarge), after) ∧
      current?.run after = (.ok (some ⟨0⟩), after) ∧
      (after.interpreter ⟨0⟩).modules = [("__main__", ⟨3⟩)] := by
  refine ⟨World.initial.started ⟨"", [], 1152921504606846976⟩, _, run_start_of_free rfl rfl, rfl, ?_,
    rfl, ?_, ?_⟩
  · cbv
  · cbv
  · cbv

end HostBridge
