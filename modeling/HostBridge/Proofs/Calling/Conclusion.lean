import HostBridge.Proofs.Calling.Exposure
import HostBridge.Proofs.Calling.Passing
import HostBridge.Proofs.Calling.Settling

/-!
# What calls come to

When host code has returned, the slot of a function keeps its captured state, the wrapper of a
method takes what an exclusive receiver has become, and a new instance takes what its constructor
has made.  The result of a function or a method is encoded; a call of a type comes to the instance.
-/

namespace HostBridge

open Op

namespace Target

variable (program : Program)

/-- How what host code leaves of the value that it worked on is kept. -/
def store (self : Ref) (number : Nat) (subject : HostValue) : Target → HostValue → Op Unit
  | .function _ => Program.storeState (.holder self) number subject
  | .method _ owner index => Program.storeReceiver (program.method owner index) self
  | .constructor code _ =>
    match (program.maker code).style with
    | .receiver => exchange self []
    | .factory => discard

/-- What is done with the result of host code. -/
def finish (registry : RegistryId) (self : Ref) (result : HostValue) : Target → Op Ref
  | .function code =>
    ((Encode.value program registry (program.function code).result result).always
      (·.releaseAll result.references)).always (·.release self)
  | .method _ owner index =>
    ((Encode.value program registry (program.method owner index).result result).always
      (·.releaseAll result.references)).always (·.release self)
  | .constructor code _ => do
    (match (program.maker code).style with
      | .receiver => discard result
      | .factory => exchange self [] (Program.produced (program.maker code) result)).undoing
        (·.release self)
    return self

/-- All that is left of a call when host code has returned.  No host code runs any more. -/
def conclude (registry : RegistryId) (self : Ref) (number : Nat) (subject : HostValue)
    (more passed : List Ref) (left result : HostValue) (target : Target) : Op Ref := do
  let result ← settle (target.store program self number subject) more passed left result
  target.finish program registry self result

/-- What a call comes to as a host value: what a function or a method has returned, and what is
in the new instance in the end. -/
def product (middle : World) (left result : HostValue) : Target → HostValue
  | .function _ | .method _ _ _ => result
  | .constructor code _ =>
    match (program.maker code).style with
    | .receiver => copied left (adopted result middle)
    | .factory => Program.produced (program.maker code) (copied result middle)

/-- What is behind wrappers in the end: an exclusive receiver as the method has left it, any other
as it was when the host code returned, and in a new instance what its constructor has made. -/
inductive Leaves (self : Ref) (left result : HostValue) (middle final : World) (ref : Ref) :
    Target → Prop
  | function {code : Nat} : Leaves self left result middle final ref (.function code)
  | exclusive {owner : StructId} {index : Nat}
      (receiver : (program.method owner index).receiver = .exclusive)
      (behind : final.behind? self = some (copied left (adopted result middle))) :
    Leaves self left result middle final ref (.method self owner index)
  | untouched {owner : StructId} {index : Nat}
      (receiver : (program.method owner index).receiver ≠ .exclusive)
      (behind : final.behind? self = middle.behind? self) :
    Leaves self left result middle final ref (.method self owner index)
  | constructor {code : Nat} {id : StructId} (same : ref = self)
      (behind : final.behind? self =
        some ((Target.constructor code id).product program middle left result)) :
    Leaves self left result middle final ref (.constructor code id)

/-- The result of host code is one that comes back from its object.  What a constructor returns is
not encoded. -/
def Answers (registry : RegistryId) (middle : World) (result : HostValue) : Target → Prop
  | .function code => result.Regular ∧
    (program.function code).result.Convertible program (middle.registers registry)
  | .method _ owner index => result.Regular ∧
    (program.method owner index).result.Convertible program (middle.registers registry)
  | .constructor _ _ => True

/-- How a call ends whose host code has returned: wrappers show what they should, and the object
that the call comes to is decoded as what the host code has produced. -/
structure Concluded (registry : RegistryId) (self : Ref) (left result : HostValue)
    (middle final : World) (ref : Ref) (target : Target) : Prop where
  leaves : target.Leaves program self left result middle final ref
  decodes : ∀ interpreter, ∃ back last,
    (program.fromObject ⟨interpreter, registry⟩ (target.result program) ref).run final =
      (.ok (.ok back), last) ∧ (target.product program middle left result).Alike back

end Target

variable {program : Program} {registry : RegistryId} {world : World}

theorem Op.run_always_bind_of_ok {α β : Type} {first : Op α} {next : α → Op β} {value : α}
    {after : World} (ran : first.run world = (.ok value, after)) (step : World → World) :
    ((first >>= next).always step).run world = ((next value).always step).run after := by
  rw [run_always, Operation.run_bind_of_ok ran, run_always]

/-! ## Functions and methods -/

/-- A call of a function or a method whose host code returns delivers an object that stands for the
result. -/
theorem exists_delivered {callback : Callback}
    (calls : Callback.Counts program Permission.anything callback) {remains : HostValue → Prop}
    {parameters : List HostType} {type : HostType} {run : Behaviour} {subject : HostValue}
    {arguments : List HostValue} {store : HostValue → Op Unit} {self : Ref} {frame : Multiset Ref}
    (code : run.Honest program remains parameters type) (given : remains subject)
    (used : ∀ ref ∈ subject.references, ref.place < world.heap.size)
    (fit : HostValue.fitsAll program parameters arguments = true)
    (stores : Stores program Permission.anything remains store world) (spares : SparesTypes store)
    (sound : world.Sound program (HostValue.referencesAll arguments + ({self} + frame)))
    {left result : HostValue} {more : List Ref} {middle : World}
    (routine : (runRoutine callback [] (run world.heap subject arguments)).run world =
      (.ok (⟨left, .ok result⟩, more), middle))
    (regular : result.Regular)
    (convertible : type.Convertible program (middle.registers registry)) :
    ∃ stored settled ref final,
      (perform callback run subject arguments store).run world = (.ok result, settled) ∧
      Settled program Permission.anything store more (HostValue.referencesAll arguments) left result
        middle stored settled ∧
      (((Encode.value program registry type result).always (·.releaseAll result.references)).always
        (·.release self)).run settled = (.ok ref, final) ∧
      Path program Permission.anything world (HostValue.referencesAll arguments) middle
        (more + HostValue.referencesAll arguments) ∧
      Ended program remains type ⟨left, .ok result⟩ middle ∧
      World.Leads program Permission.nothing stored final ∧
      Path program Permission.anything world (HostValue.referencesAll arguments + {self}) final
        {ref} ∧
      Denotes program final.heap registry (middle.registers registry) type result ref := by
  obtain ⟨plain, shown, returns⟩ := convertible
  obtain ⟨stored, settled, ran, settles, running, ended⟩ :=
    exists_performed calls code given used fit stores spares sound routine
  have settling := settles.path
  rw [copied_of_regular regular] at ran settling
  have soundSettled := ((running.trans settling).frame ({self} + frame)).sound sound
  have ready : settled.Encodes program registry (middle.registers registry) plain
      (result.references + ({self} + frame)) := by
    refine ⟨soundSettled, fun id => ?_, shown⟩
    rw [World.registers, World.registers, Registry.handle?, Registry.handle?,
      settles.types registry]
  obtain ⟨ref, encoded, encodes, encoding, denotes⟩ :=
    exists_encoded ready (ended.result result rfl).fit regular returns
  have releasing : Path program Permission.nothing encoded {self} (encoded.release self) 0 :=
    path_release encoded self
  have soundEncoded := (encoding.frame ({self} + frame)).sound soundSettled
  have finishing := (encoding.frame {self}).trans (by
    have framed := releasing.frame {ref}
    rwa [zero_add, add_comm] at framed)
  refine ⟨stored, settled, ref, encoded.release self, ran, settles, run_always_of_run encodes _,
    running, ended, settles.leads.trans ⟨_, _, finishing⟩, ?_, ?_⟩
  · exact ((running.trans settling).frame {self}).trans
      (finishing.mono Permission.nothing.within_anything)
  · rw [add_left_comm] at soundEncoded
    exact denotes.kept releasing soundEncoded (fun _ => False.elim) (by simp)

/-- A value that is put behind a wrapper while host code is settled with is there in the end. -/
theorem Op.Settled.behind? {touch : Permission} {store : HostValue → Op Unit}
    {remains : HostValue → Prop}
    {type : HostType} {self : Ref} {held : Multiset Ref} {content content' : Held}
    {bridged bridged' : BridgedType} {left result : HostValue} {more passed : List Ref}
    {middle stored settled final : World}
    (settles : Settled program touch store more passed left result middle stored settled)
    (exchanges : store = exchange self [])
    (ended : Ended program remains type ⟨left, .ok result⟩ middle)
    (fit : left.fits program (.struct bridged.host) = true) (sound : middle.Sound program held)
    (wrapper : middle.heap.wrapper? self = some (content, bridged))
    (leads : World.Leads program Permission.nothing stored final) (wired : final.Wired program)
    (wrapper' : final.heap.wrapper? self = some (content', bridged')) :
    final.behind? self = some (copied left (adopted result middle)) := by
  have makes : World.Makes program Permission.nothing middle [] _ _ := makes_settling ended
  have soundLast := (makes.path_new held).sound sound
  have wrapperLast := makes.more.wrapper? wrapper
  have fits : (copied left (adopted result middle)).fits program (.struct bridged.host) = true := by
    rw [copied, HostValue.fits_completed]
    exact fit
  obtain ⟨after, ran, writes⟩ :=
    exchange_writes soundLast wrapperLast (Program.typeAt?_nil _) fits
  have kept := settles.kept
  rw [exchanges, ran] at kept
  cases kept
  rw [List.append_nil] at writes
  obtain ⟨given, taken, path⟩ := leads
  have back : Path program Permission.nothing stored (0 + given) final taken := by rwa [zero_add]
  have written := World.Writes.between (.refl _ _) (writes.frame given) back
  exact written.behind? soundLast.wired wired wrapperLast wrapper'

/-- What a method has left of its receiver is behind the wrapper in the end if the receiver is
exclusive; otherwise the wrapper shows what it has shown when the host code returned. -/
theorem leaves_method {type : HostType} {arguments : List HostValue}
    {callee self ref : Ref} {frame : Multiset Ref} {definition : MethodDef} {content : Held}
    {bridged : BridgedType} {index : Nat} {left result : HostValue} {more : List Ref}
    {middle stored settled final : World}
    (sound : world.Sound program (HostValue.referencesAll arguments + ({self} + frame)))
    (member : callee ∈ frame)
    (body : world.heap.body callee = .function definition (.bound self))
    (wrapper : world.heap.wrapper? self = some (content, bridged))
    (running : Path program Permission.anything world (HostValue.referencesAll arguments) middle
      (more + HostValue.referencesAll arguments))
    (ended : Ended program (fun value => value.fits program (.struct bridged.host) = true) type
      ⟨left, .ok result⟩ middle)
    (settles : Settled program Permission.anything
      (Program.storeReceiver (program.method bridged.host index) self) more
      (HostValue.referencesAll arguments) left result middle stored settled)
    (leads : World.Leads program Permission.nothing stored final)
    (path : Path program Permission.anything world (HostValue.referencesAll arguments + {self}) final
      {ref}) :
    Target.Leaves program self left result middle final ref (.method self bridged.host index) := by
  have framed : world.Sound program (HostValue.referencesAll arguments + {self} + frame) := by
    rwa [add_assoc]
  obtain ⟨cell, present, _⟩ := Heap.exists_cell_of_body body (by simp)
  obtain ⟨later, there⟩ := path.keeps_cell framed present member
  obtain ⟨_, content', wrapper', _⟩ := path.keeps_receiver framed body wrapper there
  have wired := ((path.frame frame).sound framed).wired
  have soundMiddle := (running.frame ({self} + frame)).sound sound
  obtain ⟨content'', wrapper'', _⟩ := running.keeps_wrapper sound wrapper (by simp)
  by_cases exclusive : (program.method bridged.host index).receiver = .exclusive
  · refine .exclusive exclusive (settles.behind? ?_ ended ended.left soundMiddle wrapper'' leads wired
      wrapper')
    funext value
    rw [Program.storeReceiver, if_pos exclusive]
  · have kept := settles.kept
    rw [Program.storeReceiver, if_neg exclusive] at kept
    cases kept
    have released : World.Leads program Permission.nothing (adopted left (adopted result middle)) _ :=
      ⟨_, _, path_releaseAll _ (copied left (adopted result middle)).references⟩
    have makes : World.Makes program Permission.nothing middle [] _ _ := makes_settling ended
    have whole := (makes.leads.trans released).trans leads
    exact .untouched exclusive (whole.behind? soundMiddle.wired wired wrapper'' wrapper')

theorem stores_state (site : Program.CallSite) (number : Nat) (captured : HostValue)
    (before : World) : Stores program Permission.anything (fun _ => True)
      (Program.storeState site number captured) before := by
  unfold Program.storeState
  split
  · exact stores_discard _ _
  · exact stores_discard _ _
  · exact stores_captured (fun _ => trivial) _ _ _ _

theorem stores_receiver (method : MethodDecl) {ref : Ref} {content : Held} {bridged : BridgedType}
    (wrapper : world.heap.wrapper? ref = some (content, bridged)) :
    Stores program Permission.anything
      (fun value => value.fits program (.struct bridged.host) = true)
      (Program.storeReceiver method ref) world := by
  by_cases exclusive : method.receiver = .exclusive
  · have same : Program.storeReceiver method ref = exchange ref [] := by
      funext value
      rw [Program.storeReceiver, if_pos exclusive]
    rw [same]
    exact stores_exchange (fun _ _ _ => trivial) wrapper
  · have same : Program.storeReceiver method ref = discard := by
      funext value
      rw [Program.storeReceiver, if_neg exclusive]
    rw [same]
    exact stores_discard _ _

/-- What is called from host code counts references. -/
theorem Program.Honest.counts (honest : program.Honest) (depth : Nat) :
    Callback.Counts program Permission.anything (program.callbackAt depth) :=
  fun callee arguments world calleeUsed used =>
    program.runs_callWithin honest honest.confined depth callee arguments none world calleeUsed used
      fun ref none => by cases none

section

variable {self : Ref} {read arguments : List HostValue} {noted : World} {frame : Multiset Ref}
  {left result : HostValue} {more : List Ref} {middle : World}

/-- How a function ends whose host code has returned. -/
theorem concluded_function (honest : program.Honest) {number code : Nat} {captured : HostValue}
    (sound : world.Sound program (HostValue.referencesAll arguments + ({self} + frame)))
    (used : ∀ ref ∈ captured.references, ref.place < world.heap.size)
    (fit : HostValue.fitsAll program (program.function code).parameters arguments = true)
    (adopting : (adoptAll read).run noted = (.ok arguments, world))
    (routine : (runRoutine (program.callbackAt 999) []
      ((program.function code).run world.heap captured arguments)).run world =
        (.ok (⟨left, .ok result⟩, more), middle))
    (answers : (Target.function code).Answers program registry middle result) :
    ∃ ref final,
      ((program.applyFunction (program.callbackAt 999) registry (.holder self) number code captured
        read).always (·.release self)).run noted = (.ok ref, final) ∧
      ((Target.function code).conclude program registry self number captured more
        (HostValue.referencesAll arguments) left result).run middle = (.ok ref, final) ∧
      (Target.function code).Concluded program registry self left result middle final ref := by
  obtain ⟨regular, convertible⟩ := answers
  obtain ⟨stored, settled, ref, final, ran, settles, delivers, _, _, _, path, denotes⟩ :=
    exists_delivered (honest.counts 999) (honest.function code) trivial used fit
      (stores_state (.holder self) number captured world) (sparesTypes_storeState _ _ _) sound
      routine regular convertible
  have settling := settles.ran
  rw [copied_of_regular regular] at settling
  refine ⟨ref, final, ?_, ?_, .function, fun interpreter => ?_⟩
  · rw [Program.applyFunction, run_always_bind_of_ok adopting, run_always_bind_of_ok ran]
    exact delivers
  · rw [Target.conclude]
    exact (Operation.run_bind_of_ok settling _).trans delivers
  · have grounded := ((path.frame frame).sound (by rwa [add_assoc])).grounded
    have standing : Denotes program final.heap (Bridge.mk interpreter registry).registry _ _ _ ref :=
      denotes
    exact standing.run_fromObject honest.founded grounded regular

/-- How a method ends whose host code has returned. -/
theorem concluded_method (honest : program.Honest) {callee : Ref} {definition : MethodDef}
    {content : Held} {bridged : BridgedType} {index number : Nat} {receiver : HostValue}
    (sound : world.Sound program (HostValue.referencesAll arguments + ({self} + frame)))
    (member : callee ∈ frame) (body : world.heap.body callee = .function definition (.bound self))
    (wrapper : world.heap.wrapper? self = some (content, bridged))
    (wrapped : world.heap.wrapped? self = some (receiver, bridged))
    (fit : HostValue.fitsAll program (program.method bridged.host index).parameters arguments = true)
    (adopting : (adoptAll read).run noted = (.ok arguments, world))
    (routine : (runRoutine (program.callbackAt 999) []
      ((program.method bridged.host index).run world.heap receiver arguments)).run world =
        (.ok (⟨left, .ok result⟩, more), middle))
    (answers : (Target.method self bridged.host index).Answers program registry middle result) :
    ∃ ref final,
      ((program.applyMethod (program.callbackAt 999) registry (program.method bridged.host index) self
        receiver read).always (·.release self)).run noted = (.ok ref, final) ∧
      ((Target.method self bridged.host index).conclude program registry self number receiver more
        (HostValue.referencesAll arguments) left result).run middle = (.ok ref, final) ∧
      (Target.method self bridged.host index).Concluded program registry self left result middle final
        ref := by
  obtain ⟨regular, convertible⟩ := answers
  have behind := Decode.valid_wrapped? sound wrapped
  obtain ⟨stored, settled, ref, final, ran, settles, delivers, running, ended, leads, path, denotes⟩ :=
    exists_delivered (honest.counts 999) (honest.method bridged.host index) behind.fit behind.used fit
      (stores_receiver _ wrapper) (sparesTypes_storeReceiver _ _) sound routine regular convertible
  have settling := settles.ran
  rw [copied_of_regular regular] at settling
  refine ⟨ref, final, ?_, ?_, ?_, fun interpreter => ?_⟩
  · rw [Program.applyMethod, run_always_bind_of_ok adopting, run_always_bind_of_ok ran]
    exact delivers
  · rw [Target.conclude]
    exact (Operation.run_bind_of_ok settling _).trans delivers
  · exact leaves_method sound member body wrapper running ended settles leads path
  · have grounded := ((path.frame frame).sound (by rwa [add_assoc])).grounded
    have standing : Denotes program final.heap (Bridge.mk interpreter registry).registry _ _ _ ref :=
      denotes
    exact standing.run_fromObject honest.founded grounded regular

end

/-! ## Constructors -/

/-- What a constructor works on: the zero value in the new instance, or nothing. -/
def MakerDecl.initial (maker : MakerDecl) (fresh : HostValue) : HostValue :=
  match maker.style with
  | .receiver => fresh
  | .factory => .unit

/-- What is owned is not changed when a copy of it is adopted. -/
theorem copied_copied (value : HostValue) (world later : World) :
    copied (copied value world) later = copied value world := by
  rw [copied, copied, HostValue.completed_completed]

theorem copied_produced (maker : MakerDecl) (value : HostValue) (world later : World) :
    copied (Program.produced maker (copied value world)) later =
      Program.produced maker (copied value world) := by
  have whole := copied_copied value world later
  generalize copied value world = kept at whole
  unfold Program.produced
  split
  · rename_i inner
    split
    · rw [copied, HostValue.completed] at whole
      exact HostValue.boxed.inj whole
    · exact whole
  · exact whole

theorem copied_product (code : Nat) (id : StructId) (middle later : World)
    (left result : HostValue) :
    copied ((Target.constructor code id).product program middle left result) later =
      (Target.constructor code id).product program middle left result := by
  rw [Target.product]
  split
  · exact copied_copied _ _ _
  · exact copied_produced _ _ _ _

/-- A wrapper of a bridge is read as the value behind it. -/
theorem run_fromObject_of_wrapped {ref : Ref} {value : HostValue} {bridged : BridgedType}
    (wrapped : world.heap.wrapped? ref = some (value, bridged)) (same : bridged.registry = registry)
    (interpreter : InterpreterId) :
    (program.fromObject ⟨interpreter, registry⟩ (.struct bridged.host) ref).run world =
      (.ok (.ok (copied value world)), adopted value world) := by
  have read : Decode.fresh program world.heap registry (.struct bridged.host) ref = .ok value := by
    rw [Decode.fresh, Decode.value, Decode.valueWith, Decode.struct_of_wrapped wrapped,
      if_pos ⟨same, rfl⟩]
  rw [Program.fromObject, Operation.run_bind_of_ok (run_heap world), read]
  rfl

section

variable {self : Ref} {read arguments : List HostValue} {noted : World} {frame : Multiset Ref}
  {left result : HostValue} {more : List Ref} {middle : World}

section

variable {code number : Nat} {content : Held} {bridged : BridgedType} {fresh : HostValue}
  (sound : world.Sound program (HostValue.referencesAll arguments + ({self} + frame)))
  (wrapper : world.heap.wrapper? self = some (content, bridged))
  (subject : (program.maker code).subject.unboxed = .struct bridged.host)
  (fit : HostValue.fitsAll program (program.maker code).parameters arguments = true)
  (adopting : (adoptAll read).run noted = (.ok arguments, world))
  (routine : (runRoutine (program.callbackAt 999) [] ((program.maker code).run world.heap
    ((program.maker code).initial fresh) arguments)).run world =
      (.ok (⟨left, .ok result⟩, more), middle))

include sound wrapper subject fit adopting routine

/-- What is behind an instance in the end that its constructor has worked on. -/
theorem filled_receiver (honest : program.Honest)
    (wrapped : world.heap.wrapped? self = some (fresh, bridged))
    (style : (program.maker code).style = .receiver) : ∃ final,
      (Program.fill (program.callbackAt 999) (program.maker code) self fresh read).run noted =
        (.ok (), final) ∧
      ((Target.constructor code bridged.host).conclude program registry self number
        ((program.maker code).initial fresh) more (HostValue.referencesAll arguments) left
        result).run middle = (.ok self, final) ∧
      final.heap.wrapped? self = some ((Target.constructor code bridged.host).product program middle
        left result, bridged) := by
  rw [MakerDecl.initial, style] at routine
  have made := honest.receiver code style
  rw [subject] at made
  have zero := Decode.valid_wrapped? sound wrapped
  obtain ⟨stored, settled, ran, settles, running, ended⟩ :=
    exists_performed (honest.counts 999) made zero.fit zero.used fit
      (stores_exchange (fun _ _ _ => trivial) wrapper) (sparesTypes_exchange self) sound routine
  have discarding : Path program Permission.nothing settled (copied result middle).references
      (settled.releaseAll (copied result middle).references) 0 := path_releaseAll _ _
  have path := (running.trans settles.path).trans (discarding.mono Permission.nothing.within_anything)
  have wired := ((path.frame ({self} + frame)).sound sound).wired
  obtain ⟨content', wrapper', _⟩ := running.keeps_wrapper sound wrapper (by simp)
  obtain ⟨content'', wrapper'', _⟩ := path.keeps_wrapper sound wrapper (by simp)
  have soundMiddle := (running.frame ({self} + frame)).sound sound
  have behind := settles.behind? rfl ended ended.left soundMiddle wrapper'
    (settles.leads.trans ⟨_, _, discarding⟩) wired wrapper''
  refine ⟨_, ?_, ?_, wired.wrapped?_of_behind? wrapper'' ?_⟩
  · rw [Program.fill, style]
    dsimp only
    rw [Operation.run_bind_of_ok adopting, Operation.run_bind_of_ok ran]
    rfl
  · rw [Target.conclude, Target.store, style]
    refine (Operation.run_bind_of_ok settles.ran _).trans ?_
    rw [Target.finish, style]
    rfl
  · rw [Target.product, style]
    exact behind

/-- What is behind an instance in the end whose value its constructor has made. -/
theorem filled_factory (honest : program.Honest) (proper : (program.maker code).Proper)
    (style : (program.maker code).style = .factory) : ∃ final,
      (Program.fill (program.callbackAt 999) (program.maker code) self fresh read).run noted =
        (.ok (), final) ∧
      ((Target.constructor code bridged.host).conclude program registry self number
        ((program.maker code).initial fresh) more (HostValue.referencesAll arguments) left
        result).run middle = (.ok self, final) ∧
      final.heap.wrapped? self = some ((Target.constructor code bridged.host).product program middle
        left result, bridged) := by
  rw [MakerDecl.initial, style] at routine
  obtain ⟨stored, settled, ran, settles, running, ended⟩ :=
    exists_performed (honest.counts 999) (honest.factory code style) trivial
      (fun ref member => by cases member) fit (stores_discard _ _) sparesTypes_discard sound routine
  have struct : (program.maker code).subject = .struct bridged.host := by
    rw [← honest.product code style, subject]
  have fits : (copied result middle).fits program (program.maker code).result = true := by
    rw [copied, HostValue.fits_completed]
    exact (ended.result result rfl).fit
  have produced := Program.fits_produced proper style struct fits
  have settling := running.trans settles.path
  have soundSettled := (settling.frame ({self} + frame)).sound sound
  obtain ⟨content', wrapper', _⟩ := settling.keeps_wrapper sound wrapper (by simp)
  obtain ⟨final, exchanged, writes⟩ :=
    exchange_writes soundSettled wrapper' (Program.typeAt?_nil _) produced
  rw [List.append_nil] at writes
  have exchanging : Runs program Permission.anything (exchange self []
      (Program.produced (program.maker code) (copied result middle))) settled _ _ _ :=
    runs_exchange (fun _ _ _ => trivial) fun content bridged' wrapper'' => by
      rw [wrapper'] at wrapper''
      cases wrapper''
      exact ⟨_, Program.typeAt?_nil _, produced⟩
  rw [Program.references_produced] at exchanging
  obtain ⟨path, _⟩ := exchanging.ok soundSettled exchanged
  have whole := settling.trans path
  have wired := ((whole.frame ({self} + frame)).sound sound).wired
  obtain ⟨content'', wrapper'', _⟩ := whole.keeps_wrapper sound wrapper (by simp)
  have behind := writes.behind? soundSettled.wired wired wrapper' wrapper''
  refine ⟨final, ?_, ?_, wired.wrapped?_of_behind? wrapper'' ?_⟩
  · rw [Program.fill, style]
    dsimp only
    rw [Operation.run_bind_of_ok adopting, Operation.run_bind_of_ok ran]
    exact exchanged
  · rw [Target.conclude, Target.store, style]
    refine (Operation.run_bind_of_ok settles.ran _).trans ?_
    rw [Target.finish, style]
    dsimp only
    rw [Operation.run_bind_of_ok (run_undoing_of_ok exchanged _)]
    rfl
  · rw [Target.product, style]
    exact behind

end

/-- How a constructor ends whose host code has returned. -/
theorem concluded_constructor (honest : program.Honest) {code number : Nat} {content : Held}
    {bridged : BridgedType} {fresh : HostValue}
    (sound : world.Sound program (HostValue.referencesAll arguments + ({self} + frame)))
    (wrapper : world.heap.wrapper? self = some (content, bridged))
    (wrapped : world.heap.wrapped? self = some (fresh, bridged))
    (same : bridged.registry = registry)
    (subject : (program.maker code).subject.unboxed = .struct bridged.host)
    (proper : (program.maker code).Proper)
    (fit : HostValue.fitsAll program (program.maker code).parameters arguments = true)
    (adopting : (adoptAll read).run noted = (.ok arguments, world))
    (routine : (runRoutine (program.callbackAt 999) [] ((program.maker code).run world.heap
      ((program.maker code).initial fresh) arguments)).run world =
        (.ok (⟨left, .ok result⟩, more), middle)) :
    ∃ final,
      (do
        (Program.fill (program.callbackAt 999) (program.maker code) self fresh read).undoing
          (·.release self)
        return self : Op Ref).run noted = (.ok self, final) ∧
      ((Target.constructor code bridged.host).conclude program registry self number
        ((program.maker code).initial fresh) more (HostValue.referencesAll arguments) left
        result).run middle = (.ok self, final) ∧
      (Target.constructor code bridged.host).Concluded program registry self left result middle final
        self := by
  -- It is enough to know what is behind the instance in the end.
  suffices ends : ∃ final,
      (Program.fill (program.callbackAt 999) (program.maker code) self fresh read).run noted =
        (.ok (), final) ∧
      ((Target.constructor code bridged.host).conclude program registry self number
        ((program.maker code).initial fresh) more (HostValue.referencesAll arguments) left
        result).run middle = (.ok self, final) ∧
      final.heap.wrapped? self = some ((Target.constructor code bridged.host).product program middle
        left result, bridged) by
    obtain ⟨final, filled, concluded, shown⟩ := ends
    refine ⟨final, ?_, concluded, .constructor rfl (World.behind?_of_wrapped? shown),
      fun interpreter => ⟨_, _, run_fromObject_of_wrapped shown same interpreter, ?_⟩⟩
    · rw [Operation.run_bind_of_ok (run_undoing_of_ok filled _)]
      rfl
    · rw [copied_product]
      exact .refl _
  cases style : (program.maker code).style with
  | receiver => exact filled_receiver sound wrapper subject fit adopting routine honest wrapped style
  | factory => exact filled_factory sound wrapper subject fit adopting routine honest proper style

end

end HostBridge
