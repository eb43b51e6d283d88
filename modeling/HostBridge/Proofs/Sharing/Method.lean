import HostBridge.Proofs.Calling.Run
import HostBridge.Proofs.Ownership.Call
import HostBridge.Proofs.Sharing.Write

/-!
# Writes by methods

A method with an exclusive receiver changes the value behind its wrapper as a
whole.  If the host code does not call back into the runtime, then nothing else
that wrappers own is changed by the call.
-/

namespace HostBridge

open Op

variable {program : Program} {world : World} {held : Multiset Ref}

/-! ## Host code that does not call back -/

namespace Op

/-- A routine that does not call back runs whatever it would call, and to its end. -/
theorem exists_run_of_quiet (callback other : Callback) {routine : Routine}
    (quiet : routine.Quiet) (refs : List Ref) (world : World) :
    ∃ ended after, (runRoutine callback refs routine).run world = (.ok ended, after) ∧
      (runRoutine other refs routine).run world = (.ok ended, after) := by
  induction quiet generalizing refs world with
  | ended outcome => exact ⟨(outcome, refs), world, rfl, rfl⟩
  | makeText later ih => exact ih world.heap.next _ _

/-- Host code that does not call back changes no object. -/
theorem run_quiet (callback : Callback) {routine : Routine} {remains : HostValue → Prop}
    {type : HostType} (quiet : routine.Quiet)
    (honest : routine.Honest program remains type world.heap.size)
    (sound : world.Sound program held) :
    ∃ outcome more after, (runRoutine callback [] routine).run world = (.ok (outcome, more), after) ∧
      Path program Permission.nothing world 0 after more ∧ Ended program remains type outcome after := by
  have never : Callback.Counts program Permission.nothing fun _ _ => throw .exhausted :=
    fun _ _ _ _ _ => .throw _
  obtain ⟨⟨outcome, more⟩, after, ran, same⟩ :=
    exists_run_of_quiet callback (fun _ _ => throw .exhausted) quiet [] world
  obtain ⟨path, ended⟩ := (runs_runRoutine never honest world [] rfl).ok
    (by rwa [Multiset.coe_nil, zero_add]) same
  exact ⟨outcome, more, after, ran, path, ended⟩

end Op

namespace Program

/-! ## Calls of methods -/

/-- What an exclusive receiver has become is written, and what the host code was
given is let go. -/
theorem storeReceiver_writes (sound : world.Sound program held) {self : Ref} {content : Held}
    {bridged : BridgedType} {method : MethodDecl} {subject : HostValue}
    (wrapper : world.heap.wrapper? self = some (content, bridged))
    (exclusive : method.receiver = .exclusive)
    (valid : subject.Valid program world.heap (.struct bridged.host)) (more passed : List Ref) :
    ∃ after, world.Writes program (passed + more) after 0 (Heap.location self content).1
        (Heap.location self content).2 (copied subject world) ∧
      ∀ {α : Type} (next : Op α), (do
        storeReceiver method self (← adopt subject)
        releaseAll more
        releaseAll passed
        next).run world = next.run after := by
  obtain ⟨stored, ran, writes⟩ := adopt_exchange_writes sound wrapper (typeAt?_nil _) valid
  have released : Path program Permission.nothing stored (passed + more)
      ((stored.releaseAll more).releaseAll passed) 0 :=
    (Path.releaseAll stored more passed).trans (path_releaseAll _ passed)
  have framed := writes.frame (passed + more)
  rw [List.append_nil, zero_add] at framed
  refine ⟨_, .between (.refl _ _) framed released, ?_⟩
  intro α next
  have split : (do
      storeReceiver method self (← adopt subject)
      releaseAll more
      releaseAll passed
      next : Op α) = ((do exchange self [] (← adopt subject)) >>= fun _ =>
        (do releaseAll more; releaseAll passed; next)) := by
    rw [bind_assoc]
    simp only [storeReceiver, exclusive, if_true]
  rw [split, Operation.run_bind_of_ok ran]
  rfl

/-- A method with an exclusive receiver writes what its host code leaves of the
value behind the wrapper, even if it panics. -/
theorem perform_writes (honest : program.Honest) {values : List HostValue} {rest : Multiset Ref}
    (sound : world.Sound program (HostValue.referencesAll values + rest)) {self : Ref}
    (member : self ∈ rest) {content : Held} {bridged : BridgedType} {index : Nat}
    {receiver : HostValue} (wrapper : world.heap.wrapper? self = some (content, bridged))
    (wrapped : world.heap.wrapped? self = some (receiver, bridged))
    (exclusive : (program.method bridged.host index).receiver = .exclusive)
    (quiet : (program.method bridged.host index).run.Quiet) {callback : Callback}
    (fits : HostValue.fitsAll program (program.method bridged.host index).parameters values = true)
    {result : Except Fault HostValue} {after : World}
    (ran : (perform callback (program.method bridged.host index).run receiver values
      (storeReceiver (program.method bridged.host index) self)).run world = (result, after)) :
    ∃ new, world.Writes program (HostValue.referencesAll values) after
      (handed (fun value => value.references) result) (Heap.location self content).1
      (Heap.location self content).2 new := by
  have behind := Decode.valid_wrapped? sound wrapped
  have code := honest.method bridged.host index world.heap receiver values behind.fit behind.used
    ⟨fits, fun inner inside => sound.used_of_held (by simp [inside])⟩
  have framed : world.Sound program (0 + (HostValue.referencesAll values + rest)) := by
    rwa [zero_add]
  obtain ⟨outcome, more, middle, routine, path, done⟩ :=
    run_quiet callback (quiet world.heap receiver values) code sound
  have soundMiddle := (path.frame _).sound framed
  obtain ⟨content', wrapper', location⟩ := path.keeps_wrapper framed wrapper (by simp [member])
  have toMiddle := path.frame (HostValue.referencesAll values)
  rw [zero_add, add_comm] at toMiddle
  cases returned : outcome.result with
  | error message =>
    obtain ⟨stored, writes, next⟩ := storeReceiver_writes soundMiddle wrapper' exclusive
      ⟨done.left, done.used⟩ more (HostValue.referencesAll values)
    rw [(run_perform_of_panic routine returned).trans (next (panic (.hostCode message))),
      location] at *
    cases ran
    exact ⟨_, .between toMiddle writes (.refl _ _)⟩
  | ok value =>
    have makes : World.Makes program Permission.nothing middle [] _ (copied value middle).references :=
      (World.Makes.retainAll (done.result value returned).used).trans
        (HostValue.makes_completed value _)
    have soundResult := (makes.path_new _).sound soundMiddle
    obtain ⟨stored, writes, next⟩ := storeReceiver_writes soundResult
      (makes.more.wrapper? wrapper') exclusive ⟨done.left, makes.leads.usedAll done.used⟩ more
        (HostValue.referencesAll values)
    rw [run_perform_of_ok routine returned, Operation.run_bind_of_ok (run_adopt_copied value),
      next (pure (copied value middle))] at ran
    cases ran
    rw [location] at writes
    have written := writes.frame (copied value middle).references
    rw [zero_add] at written
    exact ⟨_, .between (toMiddle.trans (makes.path_new _)) written (.refl _ _)⟩

/-- A slot that is a method with an exclusive receiver writes the value behind the
wrapper, at most with what it was. -/
theorem invoke_writes (honest : program.Honest) (sound : world.Sound program held) {self : Ref}
    (member : self ∈ held) {content : Held} {bridged : BridgedType} {slot : Slot} {index : Nat}
    (wrapper : world.heap.wrapper? self = some (content, bridged))
    (role : slot.role = .method bridged.host index)
    (exclusive : (program.method bridged.host index).receiver = .exclusive)
    (quiet : (program.method bridged.host index).run.Quiet) {callback : Callback}
    (calls : Callback.Counts program Permission.anything callback) {registry : RegistryId}
    {positional : List Ref} (used : ∀ ref ∈ positional, ref.place < world.heap.size)
    {result : Except Fault Ref} {after : World}
    (ran : (program.invoke callback registry slot (.wrapper self) positional none).run world =
      (result, after)) :
    ∃ new, world.Writes program 0 after (handed (fun ref => {ref}) result)
      (Heap.location self content).1 (Heap.location self content).2 new := by
  cases read : program.arguments world.heap registry slot positional none with
  | error fault =>
    rw [run_invoke_of_refused read, Prod.mk.injEq] at ran
    obtain ⟨rfl, rfl⟩ := ran
    exact sound.wired.writes_behind (.refl world 0) wrapper
  | ok values =>
    have valid := valid_arguments honest.founded sound used (fun ref none => by cases none) read
    rw [slotParameters, role] at valid
    obtain ⟨receiver, wrapped, fit⟩ := sound.wired.exists_wrapped? wrapper
    have behind := Decode.valid_wrapped? sound wrapped
    have adopting : Makes program Permission.nothing (adoptAll values) world [] HostValue.referencesAll
        fun adopted _ => ∀ types, HostValue.fitsAll program types adopted =
          HostValue.fitsAll program types values := makes_adoptAll valid.2
    obtain ⟨adopted, first, ended, makes, fits⟩ := adopting
    have fitAll : HostValue.fitsAll program (program.method bridged.host index).parameters adopted =
        true := by
      rw [fits]
      exact valid.1
    have adoption := makes.path_new 0
    rw [zero_add] at adoption
    have soundFirst : first.Sound program (HostValue.referencesAll adopted + held) := by
      rw [add_comm]
      exact (makes.path_new held).sound sound
    have wrapperFirst := makes.more.wrapper? wrapper
    have wrappedFirst : first.heap.wrapped? self = some (receiver, bridged) :=
      makes.more.wrapped? wrapped
    rw [run_invoke_method read role wrapped, Operation.run_bind_of_ok ended] at ran
    rcases performed : (perform callback (program.method bridged.host index).run receiver adopted
      (storeReceiver (program.method bridged.host index) self)).run first with ⟨returned, stored⟩
    obtain ⟨new, writes⟩ := perform_writes honest soundFirst member wrapperFirst wrappedFirst
      exclusive quiet fitAll performed
    cases returned with
    | error fault =>
      rw [Operation.run_bind_of_error performed, Prod.mk.injEq] at ran
      obtain ⟨rfl, rfl⟩ := ran
      exact ⟨new, .between adoption writes (.refl _ _)⟩
    | ok value =>
      rw [Operation.run_bind_of_ok performed] at ran
      have stores : Stores program Permission.anything
          (fun value => value.fits program (.struct bridged.host) = true)
          (storeReceiver (program.method bridged.host index) self) first := by
        have exchange : Stores program Permission.anything
            (fun value => value.fits program (.struct bridged.host) = true) (exchange self []) first :=
          stores_exchange (fun _ _ _ => trivial) wrapperFirst
        unfold storeReceiver
        rwa [exclusive]
      obtain ⟨performing, fitResult⟩ := (runs_perform calls (honest.method bridged.host index)
        behind.fit (makes.leads.usedAll behind.used) fitAll stores).ok soundFirst performed
      have encoding : Runs program Permission.nothing
          ((Encode.value program registry (program.method bridged.host index).result value).always
            (·.releaseAll value.references)) stored value.references (fun ref => {ref})
              fun _ _ => True := runs_encodeOwned fitResult
      have soundStored := (performing.frame held).sound soundFirst
      refine ⟨new, .between adoption writes ?_⟩
      cases result with
      | ok ref => exact (encoding.ok soundStored ran).1
      | error fault => exact encoding.error soundStored ran

/-- Reading the name of a method makes a function that is bound to the wrapper. -/
theorem run_getAttribute_method (wired : world.Wired program) {self : Ref} {content : Held}
    {bridged : BridgedType} {name : String} {index : Nat}
    (wrapper : world.heap.wrapper? self = some (content, bridged))
    (plain : program.fieldNamed? bridged.host name = none)
    (named : program.methodNamed? bridged.host name = some index) :
    ∃ slot, slot.role = .method bridged.host index ∧ bridged.slots[slot.id]? = some slot ∧
      (program.getAttribute self name).run world =
        (Op.createFunction (program.definition (.slot slot.id) slot) self).run world := by
  obtain ⟨type, registry, shape, body, typed, context, synthesized⟩ :=
    shape_of_wrapper? wired wrapper
  rcases synthesized.accesses context name with ⟨_, _, _, _, named', _⟩ | ⟨none, _⟩
  · rw [plain] at named'
    cases named'
  rcases synthesized.methods context name with ⟨slot, index', found, named', role, place⟩ |
    ⟨_, unnamed⟩
  · rw [named, Option.some.injEq] at named'
    subst named'
    refine ⟨slot, role, place, ?_⟩
    rw [getAttribute, Operation.run_bind_of_ok (run_heap world), body]
    dsimp only
    rw [typed]
    dsimp only
    rw [none, found]
  · rw [named] at unnamed
    cases unnamed

/-- A call of a function that is bound to a wrapper as a method with an exclusive
receiver writes the value behind the wrapper. -/
theorem call_writes (honest : program.Honest) (sound : world.Sound program held)
    {function self : Ref} (functionHeld : function ∈ held) (selfHeld : self ∈ held)
    {content : Held} {bridged : BridgedType} {slot : Slot} {index : Nat}
    (wrapper : world.heap.wrapper? self = some (content, bridged))
    (body : world.heap.body function =
      .function (program.definition (.slot slot.id) slot) (.bound self))
    (place : bridged.slots[slot.id]? = some slot) (role : slot.role = .method bridged.host index)
    (exclusive : (program.method bridged.host index).receiver = .exclusive)
    (quiet : (program.method bridged.host index).run.Quiet) {positional : List Ref}
    (used : ∀ ref ∈ positional, ref.place < world.heap.size) {result : Except Fault Ref}
    {after : World} (ran : (program.call function positional none).run world = (result, after)) :
    ∃ new, world.Writes program 0 after (handed (fun ref => {ref}) result)
      (Heap.location self content).1 (Heap.location self content).2 new := by
  have plain : ∀ ref ∈ (none : Option Ref), world.heap.isDict ref = true := fun ref none => by
    cases none
  have draining : Runs program Permission.nothing drainIfDue world 0 (fun _ => 0) fun _ _ => True :=
    runs_drainIfDue
  have framed : world.Sound program (0 + held) := by rwa [zero_add]
  rcases ended : drainIfDue.run world with ⟨outcome, drained⟩
  cases outcome with
  | error fault =>
    rw [run_call_of_undrained plain ended, Prod.mk.injEq] at ran
    obtain ⟨rfl, rfl⟩ := ran
    exact sound.wired.writes_behind (draining.error framed ended) wrapper
  | ok _ =>
    obtain ⟨path, _⟩ := draining.ok framed ended
    have body' := path.keeps_object framed body (by simp) id functionHeld
    obtain ⟨content', wrapper', location⟩ := path.keeps_wrapper framed wrapper selfHeld
    have soundDrained := (path.frame held).sound framed
    rw [run_call_bound plain ended body'] at ran
    have taken : Path program Permission.nothing drained 0 (drained.retain self) (0 + {self}) :=
      .retain (soundDrained.used_of_held (by simp [selfHeld]))
    rw [zero_add] at taken
    have toRetained := path.trans taken
    have soundRetained := (taken.frame held).sound soundDrained
    have wrapperRetained := (World.Extends.retain drained self).wrapper? wrapper'
    generalize drained.retain self = retained at *
    rcases entered : (program.runEntry (callbackAt program 999) (.slot slot.id) self positional
      none).run retained with ⟨returned, last⟩
    rw [run_always] at ran
    simp only [definition, entered] at ran
    obtain ⟨rfl, rfl⟩ := Prod.mk.inj ran
    rw [← location]
    refine (?_ : ∃ new, retained.Writes program 0 last _ _ _ new).imp fun _ writes =>
      .between (by rwa [zero_add]) (writes.frame {self}) (.releaseAll last [self] _)
    rw [runEntry] at entered
    by_cases alive : retained.registryAlive bridged.registry = true
    · rw [run_dispatch_wrapper wrapperRetained alive place] at entered
      generalize s!"dispatch slot {slot.id} ({slot.exposed})" = text at entered
      have noted : Path program Permission.nothing retained 0 (retained.note .trace text) 0 :=
        path_note _ _
      have calls : Callback.Counts program Permission.anything (callbackAt program 999) :=
        fun callee arguments world calleeUsed used =>
          runs_callWithin honest honest.confined 999 callee arguments none world calleeUsed used
            fun ref none => by cases none
      have toNoted : World.Leads program Permission.nothing world (retained.note .trace text) :=
        World.Leads.trans ⟨_, _, toRetained⟩ ⟨_, _, noted⟩
      have soundNoted := (noted.frame ({self} + held)).sound (by rwa [zero_add])
      obtain ⟨new, writes⟩ := invoke_writes honest soundNoted (by simp) wrapperRetained role exclusive
        quiet calls (toNoted.usedAll used) entered
      exact ⟨new, .between noted writes (.refl _ _)⟩
    · rw [run_dispatch_wrapper_of_dead wrapperRetained alive] at entered
      obtain ⟨rfl, rfl⟩ := Prod.mk.inj entered
      exact soundRetained.wired.writes_behind (.refl retained 0) wrapperRetained

/-- A call of a method with an exclusive receiver writes the value behind the
wrapper. -/
theorem callMethod_writes (honest : program.Honest) (sound : world.Sound program held) {self : Ref}
    (member : self ∈ held) {content : Held} {bridged : BridgedType} {name : String} {index : Nat}
    (wrapper : world.heap.wrapper? self = some (content, bridged))
    (plain : program.fieldNamed? bridged.host name = none)
    (named : program.methodNamed? bridged.host name = some index)
    (exclusive : (program.method bridged.host index).receiver = .exclusive)
    (quiet : (program.method bridged.host index).run.Quiet) {positional : List Ref}
    (used : ∀ ref ∈ positional, ref.place < world.heap.size) {result : Except Fault Ref}
    {after : World} (ran : (program.callMethod self name positional).run world = (result, after)) :
    ∃ new, world.Writes program 0 after (handed (fun ref => {ref}) result)
      (Heap.location self content).1 (Heap.location self content).2 new := by
  obtain ⟨slot, role, place, reading⟩ := run_getAttribute_method sound.wired wrapper plain named
  have making : Runs program Permission.nothing
      (create (.function (program.definition (.slot slot.id) slot) (.bound self))) world 0
      (fun ref => {ref}) fun ref after => after.heap.body ref = _ :=
    runs_create_body trivial fun inner inside => by
      rw [List.mem_singleton.mp inside]
      exact sound.used_of_held member
  have framed : world.Sound program (0 + held) := by rwa [zero_add]
  generalize made : world.create (.function (program.definition (.slot slot.id) slot)
    (.bound self)) = pair at *
  obtain ⟨function, first⟩ := pair
  have ended : (Op.createFunction (program.definition (.slot slot.id) slot) self).run world =
      (.ok function, first) := by
    rw [Op.createFunction, run_create, made]
  obtain ⟨path, body⟩ := making.ok framed ended
  obtain ⟨content', wrapper', location⟩ := path.keeps_wrapper framed wrapper member
  have toFirst : World.Leads program Permission.nothing world first := ⟨_, _, path⟩
  rw [callMethod, Operation.run_bind_of_ok (reading.trans ended)] at ran
  rcases called : (program.call function positional none).run first with ⟨returned, last⟩
  rw [run_always, called] at ran
  obtain ⟨rfl, rfl⟩ := Prod.mk.inj ran
  obtain ⟨new, writes⟩ := call_writes honest ((path.frame held).sound framed)
    (by simp) (by simp [member]) wrapper' body place role exclusive quiet (toFirst.usedAll used) called
  rw [location] at writes
  have written := writes.frame {function}
  rw [zero_add] at written
  exact ⟨new, .between path written (.releaseAll last [function] _)⟩

end Program

end HostBridge
