import HostBridge.World

/-!
# Deferred releases

Counts of references may be changed on the interpreter's thread only.  Another
thread that lets a detached reference go puts the release into a queue, and the
interpreter's thread works the queue off, all of it at a time: when it is asked
to, when a call finds a full batch, and for the last time when the interpreter
finalizes.  A finished queue accepts nothing; a release that comes later is
abandoned, and the count stays too high for ever.
-/

namespace HostBridge

-- Powers are those of the core library, whatever else is imported.
attribute [local instance (2000)] instPowNat

namespace ReleaseQueue

/-- An empty queue; a batch has at least one request. -/
def create (batch : Nat) : ReleaseQueue := ⟨[], false, max batch 1⟩

/-- Whether a batch is full. -/
def isDue (queue : ReleaseQueue) : Bool := queue.batch ≤ queue.pending.length

/-- Put a request into the queue, unless it is finished. -/
def accept? (queue : ReleaseQueue) (ref : Ref) : Option ReleaseQueue :=
  if queue.finished then none else some { queue with pending := queue.pending ++ [ref] }

/-- Accept no further requests. -/
def finish (queue : ReleaseQueue) : ReleaseQueue := { queue with finished := true }

/-- The queue without requests. -/
def drained (queue : ReleaseQueue) : ReleaseQueue := { queue with pending := [] }

/-- Working the queue off first reserves room for two batches of eight-byte
requests, computed in words of 64 bits; no reservation may reach `2 ^ 63` bytes. -/
def canReserve (queue : ReleaseQueue) : Bool :=
  2 * queue.batch % 2 ^ (64 : Nat) * 8 < 2 ^ (63 : Nat)

@[simp]
theorem finished_finish (queue : ReleaseQueue) : queue.finish.finished = true := rfl

@[simp]
theorem pending_finish (queue : ReleaseQueue) : queue.finish.pending = queue.pending := rfl

@[simp]
theorem pending_drained (queue : ReleaseQueue) : queue.drained.pending = [] := rfl

theorem accept?_of_finished {queue : ReleaseQueue} (ref : Ref) (done : queue.finished = true) :
    queue.accept? ref = none := by
  simp [accept?, done]

end ReleaseQueue

/-- Threads, as the interpreter tells them apart. -/
inductive Thread where
  | owner
  | foreign
  deriving DecidableEq, Repr

/-- A reference that may cross threads. -/
structure Detached where
  object : Ref
  interpreter : InterpreterId
  deriving DecidableEq, Repr

namespace World

/-- The queue of an interpreter. -/
def queue (world : World) (id : InterpreterId) : ReleaseQueue := (world.interpreter id).queue

/-- Change the queue of an interpreter. -/
def setQueue (world : World) (id : InterpreterId) (queue : ReleaseQueue) : World :=
  world.updateInterpreter id fun entry => { entry with queue }

/-- Let a detached reference go. -/
def dropDetached (world : World) (thread : Thread) (detached : Detached) : World :=
  let queue := world.queue detached.interpreter
  if thread = .owner ∧ queue.finished = false then world.release detached.object
  else
    match queue.accept? detached.object with
    | some queue => world.setQueue detached.interpreter queue
    | none => world.note .warn "dropping deferred release requested after finalize"

end World

namespace Op

/-- Hand a reference to other threads; the caller's reference goes with it. -/
def detach (interpreter : InterpreterId) (object : Ref) : Detached := ⟨object, interpreter⟩

/-- Turn a detached reference back into one of the interpreter's thread.  If
that is refused the reference is let go. -/
def attach (thread : Thread) (detached : Detached) : Op Ref := do
  if thread = .foreign then
    change (·.dropDetached thread detached)
    raise .attachedElsewhere
  else if ((← world).queue detached.interpreter).finished then
    change (·.dropDetached thread detached)
    raise .interpreterFinalized
  else return detached.object

/-- Release everything that is queued, and count it. -/
def flush (id : InterpreterId) : Op Nat := do
  let queue := (← world).queue id
  if !queue.canReserve then panic .batchTooLarge
  change (·.setQueue id queue.drained)
  releaseAll queue.pending
  if !queue.pending.isEmpty then
    note .trace s!"released {queue.pending.length} deferred references"
  return queue.pending.length

/-- The interpreter that is bound to the thread, if it is alive. -/
def current? : Op (Option InterpreterId) := do
  let world ← world
  return world.current.filter fun id => 0 < (world.interpreter id).owners

/-- Release what is queued if a batch is full. -/
def drainIfDue : Op Unit := do
  match ← current? with
  | some id => if ((← world).queue id).isDue then discard (flush id)
  | none => return
where
  /-- Leave the count of released references aside. -/
  discard (action : Op Nat) : Op Unit := do
    let _ ← action

end Op

end HostBridge
