import HostBridge.Interpreter.Queue
import HostBridge.Proofs.Ownership.Contract

/-!
# Contracts of deferred releases

A queued reference is owned by the queue.  Working the queue off takes all
references out of it and gives them up.  A release that is abandoned leaves its
reference held for ever.
-/

namespace HostBridge

variable {program : Program} {touch : Permission} {world : World}

namespace World

/-- A change of an interpreter concerns no object and no registry. -/
theorem settles_updateInterpreter (world : World) (id : InterpreterId)
    (change : Interpreter → Interpreter) : world.Settles (world.updateInterpreter id change) :=
  .of_registries rfl rfl (by simp [updateInterpreter])

/-- What an interpreter gives up by a change comes to be held. -/
theorem claims_of_change {id : InterpreterId} {change : Interpreter → Interpreter}
    {given taken : Multiset Ref}
    (even : ((change (world.interpreter id)).claims : Multiset Ref) + taken =
      (world.interpreter id).claims + given)
    (created : id.number < world.interpreters.size) :
    (world.updateInterpreter id change).claims + taken = world.claims + given := by
  have changed := claims_updateInterpreter world change created
  refine add_right_cancel (b := ((world.interpreter id).claims : Multiset Ref)) ?_
  calc (world.updateInterpreter id change).claims + taken + (world.interpreter id).claims
      = (world.updateInterpreter id change).claims + (world.interpreter id).claims + taken := by
        abel
    _ = world.claims + ((change (world.interpreter id)).claims + taken) := by
        rw [changed]
        abel
    _ = world.claims + given + (world.interpreter id).claims := by
        rw [even]
        abel

end World

/-- A change of an interpreter that exists, by which it gives up some references
and takes others. -/
theorem Path.updateInterpreter {id : InterpreterId} {change : Interpreter → Interpreter}
    {given taken : Multiset Ref} (created : id.number < world.interpreters.size)
    (even : ((change (world.interpreter id)).claims : Multiset Ref) + taken =
      (world.interpreter id).claims + given) :
    Path program touch world given (world.updateInterpreter id change) taken :=
  .single (.settle (world.settles_updateInterpreter id change)
    (World.claims_of_change even created))

/-- A change of an interpreter that keeps what it owns. -/
theorem Path.updateInterpreter_same {id : InterpreterId} {change : Interpreter → Interpreter}
    {held : Multiset Ref} (same : ∀ entry, (change entry).claims = entry.claims) :
    Path program touch world held (world.updateInterpreter id change) held := by
  by_cases created : id.number < world.interpreters.size
  · exact .updateInterpreter created (by rw [same])
  · rw [World.updateInterpreter_of_size_le change (Nat.le_of_not_lt created)]
    exact .refl _ _

namespace World

/-- Taking all requests out of a queue. -/
theorem path_drained (id : InterpreterId) :
    Path program touch world 0 (world.setQueue id (world.queue id).drained)
      (world.queue id).pending := by
  by_cases created : id.number < world.interpreters.size
  · refine .updateInterpreter created ?_
    simp only [Interpreter.claims, Interpreter.kept, ReleaseQueue.drained, queue]
    rw [List.append_nil, Multiset.coe_add, add_zero]
  · have absent := Nat.le_of_not_lt created
    have nothing : (world.queue id).pending = [] := by
      rw [queue, interpreter, Array.getElem?_eq_none absent]
      rfl
    rw [setQueue, updateInterpreter_of_size_le _ absent, nothing]
    exact .refl _ _

/-- What nobody will ever release: a reference that is let go on another thread, or
after the interpreter has ended. -/
def abandoned (world : World) (thread : Thread) (detached : Detached) : List Ref :=
  if thread = .owner ∧ (world.queue detached.interpreter).finished = false then []
  else
    match (world.queue detached.interpreter).accept? detached.object with
    | some _ => []
    | none => [detached.object]

/-- A detached reference is released at once, released later, or abandoned. -/
theorem path_dropDetached {thread : Thread} {detached : Detached}
    (created : detached.interpreter.number < world.interpreters.size) :
    Path program touch world {detached.object} (world.dropDetached thread detached)
      (world.abandoned thread detached) := by
  unfold dropDetached abandoned
  dsimp only
  split
  · exact Op.path_release world _
  · cases accepted : (world.queue detached.interpreter).accept? detached.object with
    | some queue =>
      refine .updateInterpreter created ?_
      unfold ReleaseQueue.accept? at accepted
      split at accepted
      · cases accepted
      · cases accepted
        simp only [Interpreter.claims, Interpreter.kept, World.queue]
        rw [← List.append_assoc, ← Multiset.coe_add, Multiset.coe_nil, add_zero]
        rfl
    | none => exact Op.path_note _ _

end World

namespace Op

theorem runs_flush (id : InterpreterId) :
    Runs program touch (flush id) world 0 (fun _ => 0) fun _ _ => True := by
  refine .world_bind ?_
  dsimp only
  split
  · exact .panic _
  · refine .path_bind (run_change world _) (World.path_drained id) fun _ => ?_
    refine .path_bind (run_releaseAll _ _) (path_releaseAll _ _) fun _ => ?_
    split
    · exact .note_bind (.pure rfl trivial)
    · exact .pure rfl trivial

theorem run_current? (world : World) : (current?).run world =
    (.ok (world.current.filter fun id => 0 < (world.interpreter id).owners), world) := by
  rw [current?, Operation.run_bind_of_ok (run_world world)]
  rfl

/-- A queue without a full batch is left alone. -/
theorem run_drainIfDue_of_idle (idle : ∀ id, world.current = some id →
    (world.queue id).isDue = false) : drainIfDue.run world = (.ok (), world) := by
  rw [drainIfDue, Operation.run_bind_of_ok (run_current? world)]
  split
  · rename_i id found
    rw [Operation.run_bind_of_ok (run_world world), idle id (Option.mem_filter_iff.mp found).1]
    rfl
  · rfl

theorem runs_drainIfDue : Runs program touch drainIfDue world 0 (fun _ => 0) fun _ _ => True := by
  refine .look_bind (run_current? world) ?_
  split
  · refine .world_bind ?_
    split
    · exact (runs_flush _).bind fun _ _ _ _ => .pure rfl trivial
    · exact .pure rfl trivial
  · exact .pure rfl trivial

/-- Working off the queue changes nothing that stays. -/
theorem path_of_drained {drained : World} {frame : Multiset Ref}
    (sound : world.Sound program (0 + frame)) (ended : drainIfDue.run world = (.ok (), drained)) :
    Path program Permission.nothing world 0 drained 0 :=
  have draining : Runs program Permission.nothing drainIfDue world 0 (fun _ => 0) fun _ _ => True :=
    runs_drainIfDue
  (draining.ok sound ended).1

end Op

end HostBridge
