import HostBridge.Proofs.Interpreter.Custody
import HostBridge.Proofs.Session.Reachable

/-!
# Detached references are conserved

Whatever the order in which references are detached, dropped and attached, queues
worked off and finished, each detached reference is in one place at any time.  The
places that it can go to are ordered: nothing comes back from where it is released,
attached or abandoned, and what is pending can only be taken out and released.
-/

namespace HostBridge

variable {program : Program} {id : InterpreterId}

namespace Custody

variable {custody first second : Custody}

/-- The books are right. -/
structure Kept (program : Program) (id : InterpreterId) (custody : Custody) : Prop where
  created : id.number < custody.world.interpreters.size
  /-- Every object is counted once for each owner. -/
  sound : custody.world.Sound program custody.owners
  /-- The queue holds what is pending. -/
  queued : (custody.world.queue id).pending = custody.pending.map (·.object)
  /-- Each detached reference is in one place. -/
  numbered : (custody.tokens.map (·.number)).Perm (List.range custody.issued)
  /-- Nothing is abandoned before the end. -/
  late : (custody.world.queue id).finished = false → custody.abandoned = []

/-! ## One step -/

/-- The places of two books hold the same references in all. -/
theorem Kept.numbered_congr (kept : custody.Kept program id) {other : Custody}
    (same : (other.tokens : Multiset Token) = custody.tokens)
    (issued : other.issued = custody.issued) :
    (other.tokens.map (·.number)).Perm (List.range other.issued) := by
  rw [issued]
  exact ((Multiset.coe_eq_coe.mp same).map _).trans kept.numbered

theorem letGo_world (custody : Custody) (id : InterpreterId) (thread : Thread) (token : Token) :
    (custody.letGo id thread token).world =
      custody.world.dropDetached thread (Op.detach id token.object) := by
  unfold letGo
  split
  · rfl
  · cases thread <;> rfl

/-- A reference that is refused is let go. -/
theorem refuse_eq {world : World} {fault : Fault} {thread : Thread} {token : Token}
    (run : (Op.attach thread (Op.detach id token.object)).run custody.world = (.error fault, world))
    (held : List Token) :
    { letGo { custody with held } id thread token with world } =
      letGo { custody with held } id thread token := by
  rcases run_attach custody.world thread (Op.detach id token.object) with ⟨_, _, ok⟩ | ⟨_, error⟩
  · rw [ok] at run
    cases run
  · rw [error] at run
    obtain ⟨_, rfl⟩ := Prod.mk.inj run
    have same := letGo_world { custody with held } id thread token
    rw [← same]

/-- A reference that is let go keeps the books right. -/
theorem Kept.parting (kept : custody.Kept program id) {token : Token} {front back : List Token}
    (held : custody.held = front ++ token :: back) (thread : Thread) :
    (letGo { custody with held := front ++ back } id thread token).Kept program id := by
  have owners : custody.owners =
      { custody with held := front ++ back }.owners + {token.object} := by
    simp only [Custody.owners, held, Token.objects_append, Token.objects_cons]
    abel
  have all : (custody.tokens : Multiset Token) =
      { custody with held := front ++ back }.tokens + {token} := by
    simp only [Custody.tokens, held, ← Multiset.coe_add, ← Multiset.cons_coe,
      ← Multiset.singleton_add]
    abel
  have sound := kept.sound
  rw [owners] at sound
  cases finished : (custody.world.queue id).finished with
  | true =>
    rw [letGo_finished { custody with held := front ++ back } thread token finished]
    refine ⟨kept.created, ?_, kept.queued, ?_, fun running => absurd running (by
      rw [show (custody.world.note _ _).queue id = custody.world.queue id from rfl, finished]
      simp)⟩
    · have path : Path program Permission.anything custody.world
          ({ custody with held := front ++ back }.owners + {token.object})
          (custody.world.note _ _) _ :=
        Op.path_note .warn "dropping deferred release requested after finalize"
      convert path.sound sound using 1
      simp only [Custody.owners, Token.objects_append, Token.objects_cons, Token.objects_nil]
      abel
    · refine kept.numbered_congr ?_ rfl
      rw [all]
      simp only [Custody.tokens, ← Multiset.coe_add, Multiset.coe_singleton]
      abel
  | false =>
    cases thread with
    | owner =>
      rw [letGo_owner { custody with held := front ++ back } token finished]
      have path : Path program Permission.anything custody.world _
          (custody.world.release token.object) _ :=
        Path.release custody.world token.object { custody with held := front ++ back }.owners
      refine ⟨Nat.lt_of_lt_of_le kept.created path.grows.interpreters, path.sound sound, ?_, ?_, ?_⟩
      · dsimp only
        rw [World.queue_release]
        exact kept.queued
      · refine kept.numbered_congr ?_ rfl
        rw [all]
        simp only [Custody.tokens, ← Multiset.coe_add, Multiset.coe_singleton]
        abel
      · exact fun _ => kept.late finished
    | foreign =>
      rw [letGo_foreign { custody with held := front ++ back } token finished]
      have dropped : Path program Permission.anything custody.world
          {(Op.detach id token.object).object}
          (custody.world.dropDetached .foreign (Op.detach id token.object))
          (custody.world.abandoned .foreign (Op.detach id token.object)) :=
        World.path_dropDetached kept.created
      have none : custody.world.abandoned .foreign (Op.detach id token.object) = [] := by
        simp [World.abandoned, Op.detach, ReleaseQueue.accept?, finished]
      have path := dropped.frame { custody with held := front ++ back }.owners
      rw [none, Multiset.coe_nil, zero_add, add_comm] at path
      refine ⟨Nat.lt_of_lt_of_le kept.created path.grows.interpreters, path.sound sound, ?_, ?_, ?_⟩
      · dsimp only
        rw [dropDetached_foreign finished, World.queue_setQueue kept.created, kept.queued]
        simp
      · refine kept.numbered_congr ?_ rfl
        rw [all]
        simp only [Custody.tokens, ← Multiset.coe_add, Multiset.coe_singleton]
        abel
      · exact fun _ => kept.late finished

/-- Every step keeps the books right. -/
theorem Acts.kept (acts : Acts id first second) (kept : first.Kept program id) :
    second.Kept program id := by
  cases acts with
  | detach object rest owned =>
    refine ⟨kept.created, ?_, kept.queued, ?_, kept.late⟩
    · convert kept.sound using 1
      simp only [Custody.owners, owned, Token.objects_append, Token.objects_cons,
        Token.objects_nil]
      abel
    · have all : (({ first with
            others := rest
            issued := first.issued + 1
            held := first.held ++ [⟨first.issued, object⟩] } : Custody).tokens : Multiset Token) =
          (first.tokens ++ [⟨first.issued, object⟩] : List Token) := by
        simp only [Custody.tokens, ← Multiset.coe_add]
        abel
      refine ((Multiset.coe_eq_coe.mp all).map _).trans ?_
      rw [List.map_append, List.range_succ]
      exact kept.numbered.append (.refl _)
  | drop thread token front back held => exact kept.parting held thread
  | attach thread token front back held run =>
    rcases run_attach first.world thread (Op.detach id token.object) with ⟨_, _, ok⟩ | ⟨_, error⟩
    · rw [ok] at run
      obtain ⟨same, rfl⟩ := Prod.mk.inj run
      cases same
      refine ⟨kept.created, ?_, kept.queued, kept.numbered_congr ?_ rfl, kept.late⟩
      · convert kept.sound using 1
        simp only [Custody.owners, held, Op.detach, Token.objects_append, Token.objects_cons]
        abel
      · simp only [Custody.tokens, held, ← Multiset.coe_add, ← Multiset.cons_coe,
          ← Multiset.singleton_add, Multiset.coe_nil]
        abel
    · rw [error] at run
      cases run
  | refuse thread token front back held run =>
    rw [refuse_eq run]
    exact kept.parting held thread
  | take room =>
    have drained : Path program Permission.anything first.world 0 (first.take id).world
        (first.world.queue id).pending := World.path_drained id
    have path := drained.frame first.owners
    rw [zero_add, kept.queued] at path
    refine ⟨Nat.lt_of_lt_of_le kept.created path.grows.interpreters, ?_, ?_,
      kept.numbered_congr ?_ rfl, ?_⟩
    · have owners : (first.take id).owners = Token.objects first.pending + first.owners := by
        simp only [Custody.owners, Custody.take, Token.objects_append]
        abel
      rw [owners]
      exact path.sound kept.sound
    · exact congrArg ReleaseQueue.pending (World.queue_setQueue kept.created _)
    · simp only [Custody.tokens, Custody.take, ← Multiset.coe_add, Multiset.coe_nil]
      abel
    · intro running
      refine kept.late ?_
      rwa [Custody.take, World.queue_setQueue kept.created] at running
  | release token rest next =>
    have owners : first.owners = { first with leaving := rest }.owners + {token.object} := by
      simp only [Custody.owners, next, Token.objects_append, Token.objects_cons]
      abel
    have sound := kept.sound
    rw [owners] at sound
    have path : Path program Permission.anything first.world _ (first.world.release token.object) _ :=
      Path.release first.world token.object { first with leaving := rest }.owners
    refine ⟨Nat.lt_of_lt_of_le kept.created path.grows.interpreters, path.sound sound, ?_,
      kept.numbered_congr ?_ rfl, ?_⟩
    · dsimp only
      rw [World.queue_release]
      exact kept.queued
    · simp only [Custody.tokens, next, ← Multiset.coe_add, ← Multiset.cons_coe,
        ← Multiset.singleton_add, Multiset.coe_nil]
      abel
    · intro running
      refine kept.late ?_
      dsimp only at running
      rwa [World.queue_release] at running
  | mark =>
    have path : Path program Permission.anything first.world first.owners (first.mark id).world
        first.owners := .updateInterpreter_same fun _ => rfl
    have queue : (first.mark id).world.queue id = (first.world.queue id).finish :=
      World.queue_updateInterpreter kept.created
    refine ⟨Nat.lt_of_lt_of_le kept.created path.grows.interpreters, path.sound kept.sound, ?_,
      kept.numbered, fun running => ?_⟩
    · rw [queue]
      exact kept.queued
    · rw [queue] at running
      cases running

/-! ## What a run keeps -/

/-- The books on a world in which nothing has been detached. -/
def opening (world : World) (others : Multiset Ref) : Custody :=
  ⟨world, others, 0, [], [], [], [], [], []⟩

theorem Reaches.kept (reaches : Reaches program id first second) (kept : first.Kept program id) :
    second.Kept program id := by
  induction reaches with
  | refl => exact kept
  | act _ acts ih => exact acts.kept ih
  | @elapse second world others _ path same before =>
    have framed := path.frame
      (Token.objects (second.held ++ second.leaving ++ second.abandoned))
    refine ⟨Nat.lt_of_lt_of_le before.created path.grows.interpreters,
      framed.sound before.sound, ?_, before.numbered, ?_⟩
    · dsimp only
      rw [same]
      exact before.queued
    · dsimp only
      rw [same]
      exact before.late

/-- What one step leaves where it is. -/
structure Advances (id : InterpreterId) (first second : Custody) : Prop where
  released : first.released <+: second.released
  attached : first.attached <+: second.attached
  abandoned : first.abandoned <+: second.abandoned
  /-- What is pending goes on to be released. -/
  due : ∀ token ∈ first.pending ++ first.leaving,
    token ∈ second.pending ++ second.leaving ++ second.released
  finished : (first.world.queue id).finished = true → (second.world.queue id).finished = true

namespace Advances

theorem refl (custody : Custody) : custody.Advances id custody :=
  ⟨List.prefix_rfl, List.prefix_rfl, List.prefix_rfl,
    fun _ member => List.mem_append_left _ member, fun done => done⟩

theorem trans {third : Custody} (front : first.Advances id second)
    (back : second.Advances id third) :
    first.Advances id third := by
  refine ⟨front.released.trans back.released, front.attached.trans back.attached,
    front.abandoned.trans back.abandoned, fun token member => ?_,
    fun done => back.finished (front.finished done)⟩
  rcases List.mem_append.mp (front.due token member) with going | gone
  · exact back.due token going
  · exact List.mem_append_right _ (back.released.subset gone)

theorem letGo (custody : Custody) (held : List Token) (thread : Thread) (token : Token) :
    custody.Advances id (Custody.letGo { custody with held } id thread token) := by
  have stays : ∀ {member : Token}, member ∈ custody.pending ++ custody.leaving →
      member ∈ custody.pending ++ custody.leaving ++ custody.released :=
    fun inside => List.mem_append_left _ inside
  unfold Custody.letGo
  split
  · rename_i ended
    refine ⟨List.prefix_rfl, List.prefix_rfl, List.prefix_append _ _, fun _ => stays, fun done => ?_⟩
    dsimp only
    rw [dropDetached_finished ended]
    exact done
  · rename_i running
    rw [Bool.not_eq_true] at running
    refine match thread with
      | .owner => ⟨List.prefix_append _ _, List.prefix_rfl, List.prefix_rfl, fun _ inside => ?_, ?_⟩
      | .foreign => ⟨List.prefix_rfl, List.prefix_rfl, List.prefix_rfl, fun _ inside => ?_, ?_⟩
    · exact List.mem_append.mpr (.inl inside)
    · exact fun done => absurd (running.symm.trans done) (by simp)
    · simp only [List.mem_append] at inside ⊢
      tauto
    · exact fun done => absurd (running.symm.trans done) (by simp)

end Advances

theorem Acts.advances (acts : Acts id first second)
    (created : id.number < first.world.interpreters.size) : first.Advances id second := by
  have stays : ∀ {member : Token}, member ∈ first.pending ++ first.leaving →
      member ∈ first.pending ++ first.leaving ++ first.released :=
    fun inside => List.mem_append_left _ inside
  cases acts with
  | detach => exact ⟨List.prefix_rfl, List.prefix_rfl, List.prefix_rfl, fun _ => stays, fun done => done⟩
  | drop thread token front back held => exact .letGo first _ thread token
  | attach thread token front back held run =>
    refine ⟨List.prefix_rfl, List.prefix_append _ _, List.prefix_rfl, fun _ => stays, fun done => ?_⟩
    rcases run_attach first.world thread (Op.detach id token.object) with ⟨_, _, ok⟩ | ⟨_, error⟩
    · rw [ok] at run
      cases run
      exact done
    · rw [error] at run
      cases run
  | refuse thread token front back held run =>
    rw [refuse_eq run]
    exact .letGo first _ thread token
  | take room =>
    refine ⟨List.prefix_rfl, List.prefix_rfl, List.prefix_rfl, fun _ inside => ?_, fun done => ?_⟩
    · exact List.mem_append_left _ (List.mem_append_right _ inside)
    · rw [Custody.take, World.queue_setQueue created]
      exact done
  | release token rest next =>
    refine ⟨List.prefix_append _ _, List.prefix_rfl, List.prefix_rfl, fun _ inside => ?_, fun done => ?_⟩
    · simp only [next, List.mem_append, List.mem_cons] at inside ⊢
      tauto
    · dsimp only
      rwa [World.queue_release]
  | mark =>
    refine ⟨List.prefix_rfl, List.prefix_rfl, List.prefix_rfl, fun _ => stays, fun _ => ?_⟩
    rw [Custody.mark, World.queue_updateInterpreter created]
    rfl

theorem Reaches.advances (reaches : Reaches program id first second)
    (kept : first.Kept program id) : first.Advances id second := by
  induction reaches with
  | refl => exact .refl _
  | act front acts ih => exact ih.trans (acts.advances (front.kept kept).created)
  | elapse front path same before =>
    refine ⟨before.released, before.attached, before.abandoned, before.due, fun done => ?_⟩
    dsimp only
    rw [same]
    exact before.finished done

/-! ## After the end -/

/-- The queue is finished and empty. -/
def Closed (id : InterpreterId) (custody : Custody) : Prop :=
  (custody.world.queue id).finished = true ∧ custody.pending = []

theorem Acts.closed (acts : Acts id first second) (kept : first.Kept program id)
    (closed : first.Closed id) : second.Closed id := by
  obtain ⟨finished, empty⟩ := closed
  refine ⟨(acts.advances kept.created).finished finished, ?_⟩
  cases acts with
  | drop => simp [letGo, finished, empty]
  | refuse => simp [letGo, finished, empty]
  | take => rfl
  | detach | attach | release | mark => exact empty

theorem Reaches.closed (reaches : Reaches program id first second) (kept : first.Kept program id)
    (closed : first.Closed id) : second.Closed id := by
  induction reaches with
  | refl => exact closed
  | act front acts ih => exact acts.closed (front.kept kept) ih
  | elapse front path same ih =>
    obtain ⟨finished, empty⟩ := ih
    exact ⟨by dsimp only; rw [same]; exact finished, empty⟩

/-- When nothing is left to be released, the queue changes no object any more. -/
theorem Acts.idle (acts : Acts id first second) (closed : first.Closed id)
    (none : first.leaving = []) :
    second.leaving = [] ∧ second.released = first.released ∧
      second.world.heap = first.world.heap := by
  obtain ⟨finished, empty⟩ := closed
  have parting : ∀ (held : List Token) (thread : Thread) (token : Token),
      (letGo { first with held } id thread token).leaving = [] ∧
        (letGo { first with held } id thread token).released = first.released ∧
        (letGo { first with held } id thread token).world.heap = first.world.heap := by
    intro held thread token
    rw [letGo_world, dropDetached_finished finished]
    unfold letGo
    rw [if_pos finished]
    exact ⟨none, rfl, rfl⟩
  cases acts with
  | detach | mark => exact ⟨none, rfl, rfl⟩
  | drop thread token front back held => exact parting _ thread token
  | attach thread token front back held run =>
    rcases run_attach first.world thread (Op.detach id token.object) with ⟨_, running, _⟩ | ⟨_, error⟩
    · rw [show (Op.detach id token.object).interpreter = id from rfl, finished] at running
      cases running
    · rw [error] at run
      cases run
  | refuse thread token front back held run =>
    rw [refuse_eq run]
    exact parting _ thread token
  | take => exact ⟨by rw [Custody.take, empty, none]; rfl, rfl, rfl⟩
  | release token rest next =>
    rw [none] at next
    cases next

theorem Reaches.idle (reaches : Reaches program id first second) (kept : first.Kept program id)
    (closed : first.Closed id) (none : first.leaving = []) :
    second.leaving = [] ∧ second.released = first.released := by
  induction reaches with
  | refl => exact ⟨none, rfl⟩
  | act front acts ih =>
    obtain ⟨left, released⟩ := ih
    obtain ⟨left', released', _⟩ := acts.idle (front.closed kept closed) left
    exact ⟨left', released'.trans released⟩
  | elapse front path same ih => exact ih

end Custody

/-! ## Working the queue off -/

namespace World

/-- References are given up one after the other. -/
theorem releaseAll_append (world : World) (refs more : List Ref) :
    world.releaseAll (refs ++ more) = (world.releaseAll refs).releaseAll more := by
  induction world, refs using releaseAll.induct with
  | case1 world => rw [releaseAll_nil, List.nil_append]
  | case2 world ref rest gone ih =>
    rw [List.cons_append, releaseAll_of_gone _ gone, releaseAll_of_gone _ gone, ih]
  | case3 world ref rest cell there last ih =>
    rw [List.cons_append, releaseAll_of_last _ there last, releaseAll_of_last _ there last,
      ← List.append_assoc, ih]
  | case4 world ref rest cell there many ih =>
    have shared : 1 < cell.count := Nat.lt_of_not_le many
    rw [List.cons_append, releaseAll_of_shared _ there shared, releaseAll_of_shared _ there shared, ih]

theorem releaseAll_cons (world : World) (ref : Ref) (refs : List Ref) :
    world.releaseAll (ref :: refs) = (world.release ref).releaseAll refs :=
  world.releaseAll_append [ref] refs

end World

namespace Custody

variable {custody : Custody}

/-- A flush releases what it has taken out of the queue. -/
theorem reaches_releaseAll (leaving rest : List Token) (split : custody.leaving = leaving ++ rest) :
    Reaches program id custody { custody with
      world := custody.world.releaseAll (leaving.map (·.object))
      leaving := rest
      released := custody.released ++ leaving } := by
  induction leaving generalizing custody with
  | nil =>
    have same : { custody with
        world := custody.world.releaseAll ([].map Token.object)
        leaving := rest
        released := custody.released ++ [] } = custody := by
      rw [List.map_nil, World.releaseAll_nil, List.append_nil, ← show custody.leaving = rest from split]
    rw [same]
    exact .refl _
  | cons token leaving ih =>
    have one : Reaches program id custody _ :=
      .act (.refl custody) (.release token (leaving ++ rest) split)
    refine one.trans ?_
    have others := @ih { custody with
      world := custody.world.release token.object
      leaving := leaving ++ rest
      released := custody.released ++ [token] } rfl
    rw [List.map_cons, World.releaseAll_cons]
    rw [List.append_assoc, List.singleton_append] at others
    exact others

/-- The world after a queue has been worked off. -/
def flushed (world : World) (id : InterpreterId) : World :=
  let queue := world.queue id
  let after := (world.setQueue id queue.drained).releaseAll queue.pending
  if queue.pending.isEmpty then after
  else after.note .trace s!"released {queue.pending.length} deferred references"

/-- A flush works the queue off, unless there is no room for the next requests. -/
theorem run_flush (id : InterpreterId) (world : World) :
    (Op.flush id).run world =
      if (world.queue id).canReserve then
        (.ok (world.queue id).pending.length, flushed world id)
      else (.error (.panicked .batchTooLarge), world) := by
  rw [Op.flush, Operation.run_bind_of_ok (Op.run_world _)]
  cases room : (world.queue id).canReserve with
  | false =>
    simp only [room, Bool.not_false, if_true]
    rw [Operation.run_bind_of_error (Op.run_panic _ _)]
    rfl
  | true =>
    simp only [room, Bool.not_true, Bool.false_eq_true, if_false, if_true, flushed]
    cases (world.queue id).pending.isEmpty <;> rfl

/-- A flush takes out of the queue what is pending and releases it. -/
theorem reaches_flushed (kept : custody.Kept program id)
    (room : (custody.world.queue id).canReserve = true) :
    Reaches program id custody { custody with
      world := flushed custody.world id
      pending := []
      released := custody.released ++ custody.pending } := by
  have taken : Reaches program id custody (custody.take id) := .act (.refl custody) (.take room)
  have gone := taken.trans (reaches_releaseAll custody.pending custody.leaving rfl)
  rw [← kept.queued] at gone
  unfold flushed
  dsimp only
  split
  · exact gone
  · exact gone.elapse (Op.path_note _ _) rfl

/-- Working one queue off leaves the others alone. -/
theorem queue_flushed_other {other : InterpreterId} (distinct : other ≠ id) (world : World) :
    (flushed world other).queue id = world.queue id := by
  have apart : other.number ≠ id.number := by
    intro equal
    exact distinct (by cases other; cases id; simp_all)
  have kept : (world.setQueue other (world.queue other).drained).queue id = world.queue id := by
    simp [World.setQueue, World.updateInterpreter, World.queue, World.interpreter,
      Array.getElem?_modify, apart]
  have released : ((world.setQueue other (world.queue other).drained).releaseAll
      (world.queue other).pending).queue id = world.queue id := by
    rw [← kept, World.queue, World.interpreter, World.interpreters_releaseAll]
    rfl
  unfold flushed
  dsimp only
  split <;> exact released

/-- A flush that ends has released what was pending. -/
theorem reaches_flush (kept : custody.Kept program id) {count : Nat} {world : World}
    (run : (Op.flush id).run custody.world = (.ok count, world)) :
    count = custody.pending.length ∧
      Reaches program id custody { custody with
        world
        pending := []
        released := custody.released ++ custody.pending } := by
  rw [run_flush] at run
  split at run
  · rename_i room
    cases run
    exact ⟨by rw [kept.queued, List.length_map], reaches_flushed kept room⟩
  · cases run

/-- A call first releases what is pending, if a batch is full and the interpreter is the
one of its thread; otherwise it does nothing to the queue. -/
theorem reaches_drain (kept : custody.Kept program id) {result : Except Fault Unit} {world : World}
    (run : Op.drainIfDue.run custody.world = (result, world)) :
    Reaches program id custody { custody with world } ∨
      Reaches program id custody { custody with
        world
        pending := []
        released := custody.released ++ custody.pending } := by
  have runs : Op.Runs program Permission.anything Op.drainIfDue custody.world 0 (fun _ => 0)
      fun _ _ => True := Op.runs_drainIfDue
  have path : Path program Permission.anything custody.world 0 world 0 := by
    have ended := runs custody.owners (by rw [zero_add]; exact kept.sound)
    rw [run] at ended
    cases result with
    | ok => exact ended.1
    | error => exact ended
  have others := path.frame custody.others
  rw [zero_add] at others
  rw [Op.drainIfDue, Operation.run_bind_of_ok (Op.run_current? _)] at run
  split at run
  · rename_i other found
    rw [Operation.run_bind_of_ok (Op.run_world _)] at run
    split at run
    · cases room : (custody.world.queue other).canReserve with
      | false =>
        have stopped := run_flush other custody.world
        rw [room] at stopped
        rw [Op.drainIfDue.discard, Operation.run_bind_of_error stopped] at run
        cases run
        exact .inl (.refl _)
      | true =>
        have ended := run_flush other custody.world
        rw [room] at ended
        rw [Op.drainIfDue.discard, Operation.run_bind_of_ok ended] at run
        cases run
        by_cases here : other = id
        · subst here
          exact .inr (reaches_flushed kept room)
        · exact .inl (.elapse (.refl custody) others (queue_flushed_other here _))
    · cases run
      exact .inl (.refl _)
  · cases run
    exact .inl (.refl _)

/-! ## Conservation -/

/-- What holds of the books at any time. -/
structure Conserved (program : Program) (id : InterpreterId) (custody : Custody) : Prop where
  /-- Each detached reference is in exactly one place, and there once. -/
  numbered : (custody.tokens.map (·.number)).Perm (List.range custody.issued)
  /-- The queue holds what is pending, in order. -/
  queued : (custody.world.queue id).pending = custody.pending.map (·.object)
  /-- Every object is counted once for each owner; what has been released is not counted,
  and what is abandoned still is. -/
  counted : custody.world.Sound program custody.owners
  /-- What is released, attached or abandoned stays so. -/
  final : ∀ later, Reaches program id custody later → custody.released <+: later.released ∧
    custody.attached <+: later.attached ∧ custody.abandoned <+: later.abandoned
  /-- Nothing is abandoned before the queue is marked as finished. -/
  late : (custody.world.queue id).finished = false → custody.abandoned = []
  /-- A flush takes all requests out of the queue and releases them. -/
  flush : ∀ count world, (Op.flush id).run custody.world = (.ok count, world) →
    count = custody.pending.length ∧ Reaches program id custody { custody with
      world
      pending := []
      released := custody.released ++ custody.pending }
  /-- What a call does first does the same or leaves the queue alone. -/
  drain : ∀ result world, Op.drainIfDue.run custody.world = (result, world) →
    Reaches program id custody { custody with world } ∨
      Reaches program id custody { custody with
        world
        pending := []
        released := custody.released ++ custody.pending }
  /-- When the queue is marked as finished, and a flush takes everything out of it later
  and has released it, then all that had been accepted before is released. -/
  finish : ∀ ended returned, Reaches program id (custody.mark id) ended →
    (ended.world.queue id).canReserve = true → Reaches program id (ended.take id) returned →
    returned.leaving = [] → ∀ token ∈ custody.pending ++ custody.leaving, token ∈ returned.released
  /-- From then on the queue stays empty, and it changes no object any more. -/
  silent : ∀ ended returned, Reaches program id (custody.mark id) ended →
    (ended.world.queue id).canReserve = true → Reaches program id (ended.take id) returned →
    returned.leaving = [] → ∀ later, Reaches program id returned later →
      (later.world.queue id).pending = [] ∧ later.released = returned.released ∧
        ∀ next, Acts id later next → next.world.heap = later.world.heap

theorem Kept.conserved (kept : custody.Kept program id) : custody.Conserved program id := by
  have marked : Reaches program id custody (custody.mark id) := .act (.refl custody) .mark
  have done : ((custody.mark id).world.queue id).finished = true := by
    rw [Custody.mark, World.queue_updateInterpreter kept.created]
    rfl
  -- When the queue is taken empty after the mark it is closed, and stays so.
  have closes : ∀ ended, Reaches program id (custody.mark id) ended →
      (ended.take id).Closed id := by
    intro ended reaches
    have before := (marked.trans reaches).kept kept
    refine ⟨?_, rfl⟩
    rw [Custody.take, World.queue_setQueue before.created]
    exact (reaches.advances (marked.kept kept)).finished done
  have takes : ∀ ended, Reaches program id (custody.mark id) ended →
      (ended.world.queue id).canReserve = true → Reaches program id custody (ended.take id) :=
    fun ended reaches room => .act (marked.trans reaches) (.take room)
  refine ⟨kept.numbered, kept.queued, kept.sound, ?_, kept.late, fun _ _ => reaches_flush kept,
    fun _ _ => reaches_drain kept, ?_, ?_⟩
  · intro later reaches
    have advances := reaches.advances kept
    exact ⟨advances.released, advances.attached, advances.abandoned⟩
  · intro ended returned reaches room rest none token member
    have all := (takes ended reaches room).trans rest
    have closed := rest.closed ((takes ended reaches room).kept kept) (closes ended reaches)
    have due := (all.advances kept).due token member
    rwa [closed.2, none, List.nil_append, List.nil_append] at due
  · intro ended returned reaches room rest none later after
    have taken := (takes ended reaches room).kept kept
    have closed := rest.closed taken (closes ended reaches)
    have still := after.closed (rest.kept taken) closed
    obtain ⟨left, released⟩ := after.idle (rest.kept taken) closed none
    refine ⟨?_, released, fun next acts => (acts.idle still left).2.2⟩
    rw [(after.kept (rest.kept taken)).queued, still.2, List.map_nil]

end Custody

/--
Detached references are conserved, in whatever order they are detached, dropped and
attached, and the queue is worked off and finished, with anything else going on in
between.
-/
theorem Session.detached_conserved (honest : program.Honest) {world : World} {held : Multiset Ref}
    (session : Session program world held) (created : id.number < world.interpreters.size)
    (empty : (world.queue id).pending = []) {custody : Custody}
    (reaches : Custody.Reaches program id (.opening world held) custody) :
    custody.Conserved program id := by
  refine (reaches.kept ⟨created, ?_, empty, .refl _, fun _ => rfl⟩).conserved
  have owners : (Custody.opening world held).owners = held := by
    simp [Custody.owners, Custody.opening]
  rw [owners]
  exact session.sound honest

namespace Figures

/-- An interpreter is started, and a client takes a reference. -/
def lending : List Request := [.retain ⟨1⟩, .start ⟨"", [], 128⟩]

def lent : World := Request.played Figures.program lending

theorem lent_eq :
    ((Request.played Figures.program (lending.drop 1)).heap.size, lent.interpreters.size,
      (lent.queue ⟨0⟩).pending, ((lent.queue ⟨0⟩).finish).canReserve) = (4, 1, [], true) := by
  cbv

theorem session_lent : Session Figures.program lent {⟨1⟩} := by
  have facts := lent_eq
  simp only [Prod.mk.injEq] at facts
  have used : ∀ ref ∈ (Request.retain ⟨1⟩).borrowed,
      ref.place < (Request.played Figures.program (lending.drop 1)).heap.size := by
    intro ref member
    rw [List.mem_singleton.mp member, facts.1]
    decide
  have playable : Request.Playable Figures.program lending :=
    ⟨⟨trivial, rfl, (fun _ member => by cases member), trivial⟩, rfl, used, trivial⟩
  exact playable.session

end Figures

/-- A reference that another thread drops is released when the interpreter ends. -/
theorem Session.detached_conserved_ended :
    ∃ custody : Custody,
      Custody.Reaches Figures.program ⟨0⟩ (.opening Figures.lent {⟨1⟩}) custody ∧
        custody.released = [⟨0, ⟨1⟩⟩] ∧ custody.Conserved Figures.program ⟨0⟩ := by
  have facts := Figures.lent_eq
  simp only [Prod.mk.injEq] at facts
  obtain ⟨_, interpreters, empty, room⟩ := facts
  have detached : Custody.Reaches Figures.program ⟨0⟩ (.opening Figures.lent {⟨1⟩}) _ :=
    .act (.refl _) (.detach ⟨1⟩ 0 rfl)
  have dropped := detached.act (.drop .foreign ⟨0, ⟨1⟩⟩ [] [] rfl)
  have taken := (dropped.act .mark).act (.take room)
  have released := taken.act (.release ⟨0, ⟨1⟩⟩ [] rfl)
  exact ⟨_, released, rfl, Session.detached_conserved Figures.honest Figures.session_lent
    (by rw [interpreters]; exact Nat.zero_lt_one) empty released⟩

end HostBridge
