import HostBridge.Proofs.Ownership.Lifecycle

/-!
# The custody of detached references

A detached reference is held by whoever it was handed to, until that one lets it
go or turns it back into a reference of the interpreter's thread.  The books say
where each detached reference is: held, pending in the queue, taken out of the
queue by a flush that has yet to release it, attached, released or abandoned.

The world is changed by the operations themselves.  The books are kept beside it,
and what ties the two together is that the queue holds the objects of the pending
references, in order, and that every object is counted once for each reference
that is neither released nor given back, and for nothing else.
-/

namespace HostBridge

variable {program : Program} {id : InterpreterId}

/-- A detached reference, by the number under which it was detached. -/
structure Token where
  number : Nat
  object : Ref

namespace Token

/-- The objects of detached references. -/
def objects (tokens : List Token) : Multiset Ref := (tokens.map (·.object) : List Ref)

@[simp]
theorem objects_nil : objects [] = 0 := rfl

@[simp]
theorem objects_append (front back : List Token) :
    objects (front ++ back) = objects front + objects back := by
  simp [objects]

@[simp]
theorem objects_cons (token : Token) (rest : List Token) :
    objects (token :: rest) = {token.object} + objects rest := by
  rw [objects, List.map_cons, Tally.coe_cons]
  rfl

end Token

/-- A world, the references that code on the interpreter's thread holds, and the books
on the references that were detached for an interpreter. -/
structure Custody where
  world : World
  others : Multiset Ref
  /-- How many references have been detached. -/
  issued : Nat
  held : List Token
  /-- In the queue, the oldest request first. -/
  pending : List Token
  /-- Taken out of the queue, in the order in which they are going to be released. -/
  leaving : List Token
  attached : List Token
  released : List Token
  abandoned : List Token

namespace Custody

/-- All detached references. -/
def tokens (custody : Custody) : List Token :=
  custody.held ++ custody.pending ++ custody.leaving ++ custody.attached ++ custody.released ++
    custody.abandoned

/-- The references that no object, registry or interpreter owns. -/
def owners (custody : Custody) : Multiset Ref :=
  custody.others + Token.objects (custody.held ++ custody.leaving ++ custody.abandoned)

/-- Let a reference go that is held no longer: after the end it is abandoned, and before
that a foreign thread puts it into the queue. -/
def letGo (custody : Custody) (id : InterpreterId) (thread : Thread) (token : Token) : Custody :=
  let world := custody.world.dropDetached thread (Op.detach id token.object)
  if (custody.world.queue id).finished then
    { custody with world, abandoned := custody.abandoned ++ [token] }
  else
    match thread with
    | .owner => { custody with world, released := custody.released ++ [token] }
    | .foreign => { custody with world, pending := custody.pending ++ [token] }

/-- Mark the queue as finished, as an interpreter does first when it finalizes. -/
def mark (custody : Custody) (id : InterpreterId) : Custody :=
  { custody with
    world := custody.world.updateInterpreter id fun entry => { entry with
      finalized := true
      queue := entry.queue.finish } }

/-- Take everything out of the queue, as a flush does first. -/
def take (custody : Custody) (id : InterpreterId) : Custody :=
  { custody with
    world := custody.world.setQueue id (custody.world.queue id).drained
    pending := []
    leaving := custody.pending ++ custody.leaving }

/-- What happens to detached references in one step. -/
inductive Acts (id : InterpreterId) : Custody → Custody → Prop
  /-- A reference is detached. -/
  | detach {custody : Custody} (object : Ref) (rest : Multiset Ref)
      (owned : custody.others = rest + {object}) :
    Acts id custody { custody with
      others := rest
      issued := custody.issued + 1
      held := custody.held ++ [⟨custody.issued, object⟩] }
  /-- A detached reference is dropped on some thread. -/
  | drop {custody : Custody} (thread : Thread) (token : Token) (front back : List Token)
      (held : custody.held = front ++ token :: back) :
    Acts id custody (letGo { custody with held := front ++ back } id thread token)
  /-- A detached reference is attached. -/
  | attach {custody : Custody} {world : World} {object : Ref} (thread : Thread) (token : Token)
      (front back : List Token) (held : custody.held = front ++ token :: back)
      (run : (Op.attach thread (Op.detach id token.object)).run custody.world =
        (.ok object, world)) :
    Acts id custody { custody with
      world
      others := custody.others + {object}
      held := front ++ back
      attached := custody.attached ++ [token] }
  /-- A detached reference is not attached, but let go. -/
  | refuse {custody : Custody} {world : World} {fault : Fault} (thread : Thread) (token : Token)
      (front back : List Token) (held : custody.held = front ++ token :: back)
      (run : (Op.attach thread (Op.detach id token.object)).run custody.world =
        (.error fault, world)) :
    Acts id custody { letGo { custody with held := front ++ back } id thread token with world }
  /-- A flush takes everything out of the queue. -/
  | take {custody : Custody} (room : (custody.world.queue id).canReserve = true) :
    Acts id custody (custody.take id)
  /-- A flush releases the next reference. -/
  | release {custody : Custody} (token : Token) (rest : List Token)
      (next : custody.leaving = token :: rest) :
    Acts id custody { custody with
      world := custody.world.release token.object
      leaving := rest
      released := custody.released ++ [token] }
  /-- The queue is marked as finished. -/
  | mark {custody : Custody} : Acts id custody (custody.mark id)

/-- What detached references go through, with anything else going on in between that
leaves the queue alone. -/
inductive Reaches (program : Program) (id : InterpreterId) : Custody → Custody → Prop
  | refl (custody : Custody) : Reaches program id custody custody
  | act {first second third : Custody} (front : Reaches program id first second)
      (acts : Acts id second third) : Reaches program id first third
  | elapse {first second : Custody} {world : World} {others : Multiset Ref}
      (front : Reaches program id first second)
      (path : Path program Permission.anything second.world second.others world others)
      (same : world.queue id = second.world.queue id) :
    Reaches program id first { second with world, others }

theorem Reaches.trans {first second third : Custody} (front : Reaches program id first second)
    (back : Reaches program id second third) : Reaches program id first third := by
  induction back with
  | refl => exact front
  | act _ acts ih => exact .act ih acts
  | elapse _ path same ih => exact .elapse ih path same

end Custody

/-! ## Queues after a change -/

namespace World

variable {world : World}

theorem queue_updateInterpreter {change : Interpreter → Interpreter}
    (created : id.number < world.interpreters.size) :
    (world.updateInterpreter id change).queue id = (change (world.interpreter id)).queue :=
  congrArg Interpreter.queue (interpreter_updateInterpreter change created)

theorem queue_setQueue (created : id.number < world.interpreters.size) (queue : ReleaseQueue) :
    (world.setQueue id queue).queue id = queue :=
  queue_updateInterpreter created

theorem queue_release (world : World) (ref : Ref) :
    (world.release ref).queue id = world.queue id := by
  rw [queue, interpreter, release, interpreters_releaseAll]
  rfl

end World

namespace Custody

variable {custody : Custody}

/-- What a drop does: on the interpreter's thread it releases, elsewhere it puts a
request into the queue, and after the end it does nothing. -/
theorem dropDetached_owner {world : World} {object : Ref}
    (running : (world.queue id).finished = false) :
    world.dropDetached .owner (Op.detach id object) = world.release object := by
  simp [World.dropDetached, Op.detach, running]

theorem dropDetached_foreign {world : World} {object : Ref}
    (running : (world.queue id).finished = false) :
    world.dropDetached .foreign (Op.detach id object) =
      world.setQueue id
        { world.queue id with pending := (world.queue id).pending ++ [object] } := by
  simp [World.dropDetached, Op.detach, ReleaseQueue.accept?, running]

theorem dropDetached_finished {world : World} {thread : Thread} {object : Ref}
    (finished : (world.queue id).finished = true) :
    world.dropDetached thread (Op.detach id object) =
      world.note .warn "dropping deferred release requested after finalize" := by
  simp [World.dropDetached, Op.detach, ReleaseQueue.accept?, finished]

/-- After the end a reference is abandoned, whoever lets it go. -/
theorem letGo_finished (custody : Custody) (thread : Thread) (token : Token)
    (finished : (custody.world.queue id).finished = true) :
    letGo custody id thread token =
      { custody with
        world := custody.world.note .warn "dropping deferred release requested after finalize"
        abandoned := custody.abandoned ++ [token] } := by
  unfold letGo
  rw [if_pos finished, dropDetached_finished finished]

/-- The interpreter's own thread releases a reference at once. -/
theorem letGo_owner (custody : Custody) (token : Token)
    (running : (custody.world.queue id).finished = false) :
    letGo custody id .owner token =
      { custody with
        world := custody.world.release token.object
        released := custody.released ++ [token] } := by
  rw [letGo, if_neg (by simp [running]), dropDetached_owner running]

/-- A reference that a foreign thread lets go is pending. -/
theorem letGo_foreign (custody : Custody) (token : Token)
    (running : (custody.world.queue id).finished = false) :
    letGo custody id .foreign token =
      { custody with
        world := custody.world.dropDetached .foreign (Op.detach id token.object)
        pending := custody.pending ++ [token] } := by
  rw [letGo, if_neg (by simp [running])]

/-- A reference is attached on the interpreter's thread before the end, and let go
otherwise. -/
theorem run_attach (world : World) (thread : Thread) (detached : Detached) :
    (thread = .owner ∧ (world.queue detached.interpreter).finished = false ∧
        (Op.attach thread detached).run world = (.ok detached.object, world)) ∨
      ∃ fault, (Op.attach thread detached).run world =
        (.error fault, world.dropDetached thread detached) := by
  cases thread with
  | foreign => exact .inr ⟨_, rfl⟩
  | owner =>
    cases ended : (world.queue detached.interpreter).finished with
    | false =>
      refine .inl ⟨rfl, rfl, ?_⟩
      rw [Op.attach, if_neg (by simp), Operation.run_bind_of_ok (Op.run_world world),
        if_neg (by simp [ended])]
      rfl
    | true =>
      refine .inr ⟨.raised .interpreterFinalized, ?_⟩
      rw [Op.attach, if_neg (by simp), Operation.run_bind_of_ok (Op.run_world world), if_pos ended]
      rfl

end Custody

end HostBridge
