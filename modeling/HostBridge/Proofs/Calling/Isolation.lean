import HostBridge.Proofs.Calling.Dispatch
import HostBridge.Proofs.Codec.AllOrNothing

/-!
# Contexts that are alive at the same time

A registry may live on while another interpreter has one of its own.  Neither takes the wrappers of
the other one for values of its structs.  A function that was exported converts with one registry
for as long as it is there: that of the bridge if it was exported on its own, and that of the slot
table if it was exported into a module.  A module keeps the registry of its first export, whoever
exports into it later.
-/

namespace HostBridge

open Op

variable {program : Program} {registry : RegistryId} {world : World} {held : Multiset Ref}

/-! ## Wrappers of one registry and of others -/

/-- An object is a wrapper of another registry. -/
def World.Foreign (world : World) (registry : RegistryId) (ref : Ref) : Prop :=
  ∃ content bridged, world.heap.wrapper? ref = some (content, bridged) ∧ bridged.registry ≠ registry

/-- An object is a wrapper of a registry, of the struct that is asked for, and shows a value. -/
def World.Owns (world : World) (registry : RegistryId) (type : HostType) (ref : Ref)
    (value : HostValue) : Prop :=
  ∃ bridged, world.heap.wrapped? ref = some (value, bridged) ∧ bridged.registry = registry ∧
    type = .struct bridged.host

section

variable {ref : Ref} {id : StructId}

/-- A wrapper of another registry is no struct, whatever is in the destination. -/
theorem World.Foreign.refused (wired : world.Wired program) (foreign : world.Foreign registry ref)
    (id : StructId) (old : HostValue) :
    Decode.value program world.heap registry (.struct id) ref old =
      .error (.error (.wrongWrapper (program.struct id).name (world.heap.typeName ref))) := by
  obtain ⟨content, bridged, wrapper, other⟩ := foreign
  obtain ⟨value, wrapped, _⟩ := wired.exists_wrapped? wrapper
  rw [Decode.value, Decode.valueWith, Decode.struct_of_wrapped wrapped,
    if_neg fun same => other same.1]

/-- A wrapper of the registry is what it shows. -/
theorem World.Owns.accepted {type : HostType} {value : HostValue}
    (owns : world.Owns registry type ref value) (old : HostValue) :
    Decode.value program world.heap registry type ref old = .ok value := by
  obtain ⟨bridged, wrapped, same, rfl⟩ := owns
  rw [Decode.value, Decode.valueWith, Decode.struct_of_wrapped wrapped, if_pos ⟨same, rfl⟩]

/-- What a bridge can do with a wrapper of another registry: nothing.  Where a struct is asked for,
the destination is left as it is, whatever it holds, and so is the world. -/
structure World.Refuses (program : Program) (world : World) (registry : RegistryId) (ref : Ref) :
    Prop where
  fill : ∀ id (σ : Type) (place : Cursor σ) (state : σ), place.heap state = world.heap →
    (Decode.fill program registry (.struct id) ref place).run state =
      (.error (.error (.wrongWrapper (program.struct id).name (world.heap.typeName ref))), state)
  read : ∀ interpreter id, (program.fromObject ⟨interpreter, registry⟩ (.struct id) ref).run world =
    (.ok (.error (.wrongWrapper (program.struct id).name (world.heap.typeName ref))), world)
  behind : ∀ interpreter type,
    (Program.valueBehind ⟨interpreter, registry⟩ type ref).run world = (.ok none, world)
  update : ∀ interpreter type update,
    (Program.updateBehind ⟨interpreter, registry⟩ type ref update).run world = (.ok false, world)

theorem World.Foreign.refuses (wired : world.Wired program) (foreign : world.Foreign registry ref) :
    world.Refuses program registry ref := by
  have behind : ∀ interpreter type,
      (Program.valueBehind ⟨interpreter, registry⟩ type ref).run world = (.ok none, world) := by
    intro interpreter type
    obtain ⟨content, bridged, wrapper, other⟩ := foreign
    obtain ⟨value, wrapped, _⟩ := wired.exists_wrapped? wrapper
    rw [Program.valueBehind, Operation.run_bind_of_ok (run_heap world), wrapped]
    dsimp only
    rw [if_neg fun same => other same.1]
    rfl
  refine ⟨fun id σ place state same => ?_, fun interpreter id => ?_, behind,
    fun interpreter type update => ?_⟩
  · rw [Decode.fill_run, same, foreign.refused wired]
    rfl
  · rw [Program.fromObject, Operation.run_bind_of_ok (run_heap world), Decode.fresh,
      foreign.refused wired]
    rfl
  · rw [Program.updateBehind, Operation.run_bind_of_ok (behind interpreter type)]
    rfl

end

/-! ## Arguments -/

/-- A wrapper of another registry is not decoded for a struct, wherever it stands. -/
theorem Program.decodeArguments_of_foreign (wired : world.Wired program) {types : List HostType}
    {refs : List Ref} {place : Nat} {id : StructId} {ref : Ref}
    (type : types[place]? = some (.struct id)) (given : refs[place]? = some ref)
    (foreign : world.Foreign registry ref) :
    ∃ fault, program.decodeArguments world.heap registry types refs = .error fault := by
  induction types generalizing refs place with
  | nil => cases type
  | cons first types ih =>
    cases refs with
    | nil => cases given
    | cons head refs =>
      cases place with
      | zero =>
        cases type
        cases given
        rw [decodeArguments, Decode.fresh, foreign.refused wired]
        exact ⟨_, rfl⟩
      | succ place =>
        obtain ⟨fault, refused⟩ := ih type given
        rw [decodeArguments]
        cases Decode.fresh program world.heap registry first head with
        | ok value =>
          dsimp only
          rw [refused]
          exact ⟨_, rfl⟩
        | error refusal => cases refusal <;> exact ⟨_, rfl⟩

/-- What host code is given for positional arguments that have been decoded: these, and keyword
arguments if it collects them. -/
def Program.collected (parameters : List HostType) (heap : Heap) (values : List HostValue)
    (keywords : Option Ref) : List HostValue :=
  if (splitKeywords parameters).2 then
    values ++ [.keywords (keywords.filter fun dict => 0 < heap.dictSize dict)]
  else values

/-- A slot accepts arguments that are decoded one by one, along with keyword arguments if it
collects these. -/
theorem Program.arguments_of_decoded {heap : Heap} {slot : Slot} {refs : List Ref}
    {keywords : Option Ref} {values : List HostValue}
    (length : refs.length = (splitKeywords (program.slotParameters slot)).1.length)
    (collects : ∀ dict ∈ keywords, 0 < heap.dictSize dict →
      (splitKeywords (program.slotParameters slot)).2 = true)
    (decoded : program.decodeArguments heap registry
      (splitKeywords (program.slotParameters slot)).1 refs = .ok values) :
    program.arguments heap registry slot refs keywords =
      .ok (collected (program.slotParameters slot) heap values keywords) := by
  have wanted : ¬((keywords.filter fun dict => 0 < heap.dictSize dict).isSome &&
      !(splitKeywords (program.slotParameters slot)).2) = true := by
    intro unwanted
    obtain ⟨given, plain⟩ := Bool.and_eq_true_iff.mp unwanted
    obtain ⟨dict, same, entries⟩ := isSome_filter_keywords.mp given
    rw [collects dict same entries] at plain
    cases plain
  rw [arguments_eq, if_neg (not_not.mpr length), if_neg wanted, decoded]
  rfl

/-- A slot with a struct among its parameters accepts no wrapper of another registry there. -/
theorem Program.arguments_of_foreign (wired : world.Wired program) {slot : Slot} {refs : List Ref}
    {place : Nat} {id : StructId} {ref : Ref}
    (type : (splitKeywords (program.slotParameters slot)).1[place]? = some (.struct id))
    (given : refs[place]? = some ref) (foreign : world.Foreign registry ref)
    (keywords : Option Ref) :
    ∃ fault, program.arguments world.heap registry slot refs keywords = .error fault := by
  obtain ⟨fault, refused⟩ := decodeArguments_of_foreign wired type given foreign
  rw [arguments_eq, refused]
  split
  · exact ⟨_, rfl⟩
  · split
    · exact ⟨_, rfl⟩
    · exact ⟨fault, rfl⟩

/-- An argument is accepted for a parameter of a type: it is a wrapper of the registry, or it is
decoded otherwise. -/
def World.Accepts (world : World) (program : Program) (registry : RegistryId) (type : HostType)
    (argument : Ref × HostValue) : Prop :=
  world.Owns registry type argument.1 argument.2 ∨
    Decode.fresh program world.heap registry type argument.1 = .ok argument.2

/-- Arguments that are accepted one by one are decoded, also when there are more objects. -/
theorem Program.decodeArguments_of_accepted {larger : Heap} (enlarges : world.heap.Enlarges larger)
    {types : List HostType} {arguments : List (Ref × HostValue)}
    (accepted : List.Forall₂ (world.Accepts program registry) types arguments)
    (used : ∀ argument ∈ arguments, argument.1.place < world.heap.size) :
    program.decodeArguments larger registry types (arguments.map (·.1)) =
      .ok (arguments.map (·.2)) := by
  induction accepted with
  | nil => rfl
  | @cons type argument types arguments first _ ih =>
    have here : Decode.fresh program world.heap registry type argument.1 = .ok argument.2 :=
      first.elim (·.accepted _) id
    have like := Decode.fresh_like program enlarges registry type (used argument (by simp))
    rw [here] at like
    generalize read : Decode.fresh program larger registry type argument.1 = result at like
    cases like
    rw [List.map_cons, List.map_cons, decodeArguments, read]
    dsimp only
    rw [ih fun other member => used other (by simp [member])]
    rfl

/-! ## Calls of exported functions -/

section

variable {callback : Callback} {self callee : Ref} {entry : Entry} {slot : Slot} {code : Nat}
  {captured : HostValue} {positional : List Ref} {keywords : Option Ref}

/-- What leads to a host function is a function, whose owner has the slot. -/
theorem World.Offers.exists_routes (offers : world.Offers registry callee (.function code)) :
    ∃ definition owner slot captured, world.heap.body callee = .function definition owner ∧
      world.Routes owner.object definition.entry registry slot ∧
      slot.role = .function code captured := by
  cases offers with
  | module body entry state found role =>
    exact ⟨_, _, _, _, body, by rw [entry]; exact .module state found, role⟩
  | capsule body entry context role =>
    exact ⟨_, _, _, _, body, by rw [entry]; exact .adHoc context, role⟩

/-- Entry points lead nowhere when the registry is gone. -/
theorem Program.run_runEntry_of_dead (routes : world.Routes self entry registry slot)
    (dead : ¬world.registryAlive registry = true) :
    (program.runEntry callback entry self positional keywords).run world =
      (.error (.raised .registryReleased), world) := by
  have live : (liveRegistry registry).run world = (.error (.raised .registryReleased), world) := by
    rw [liveRegistry, Operation.run_bind_of_ok (run_world world), if_neg dead]
    rfl
  cases routes with
  | method wrapper found => exact run_dispatch_wrapper_of_dead wrapper dead positional keywords
  | module state found =>
    rw [runEntry, dispatch, Operation.run_bind_of_ok (run_heap world),
      Heap.wrapper?_of_moduleState? state, state]
    exact Operation.run_bind_of_error live _
  | adHoc context =>
    rw [runEntry, dispatchAdHoc, Operation.run_bind_of_ok (run_heap world), context]
    exact Operation.run_bind_of_error live _

variable (callback positional keywords) in
/-- An entry point that leads to the slot of a function runs this slot. -/
theorem Program.exists_run_runEntry (sound : world.Sound program held)
    (routes : world.Routes self entry registry slot) (role : slot.role = .function code captured)
    (alive : world.registryAlive registry = true) :
    ∃ log, (program.runEntry callback entry self positional keywords).run world =
      (program.invoke callback registry slot (.holder self) positional keywords).run
        { world with log } := by
  cases routes with
  | method wrapper found =>
    have concerns := concerns_of_slot sound wrapper found
    rw [role] at concerns
    exact concerns.elim
  | module state found => exact ⟨_, run_dispatch_module state alive found positional keywords⟩
  | adHoc context => exact ⟨world.log, run_dispatchAdHoc context alive positional keywords⟩

/--
How an exported function is called once the queue of deferred releases has been worked off.
Without its registry it cannot be called.  With it, arguments and results are converted with
this registry, whatever others there are: wrappers of this registry are accepted for structs, and
a call with a wrapper of another one changes nothing.
-/
structure Program.Converts (program : Program) (registry : RegistryId) (called drained : World)
    (callee : Ref) (code : Nat) (positional : List Ref) (keywords : Option Ref) : Prop where
  released : ¬drained.registryAlive registry = true → ∃ after, drained.Untouched after ∧
    (program.call callee positional keywords).run called =
      (.error (.raised .registryReleased), after)
  invoked : drained.registryAlive registry = true → ∃ owner slot captured start,
    drained.Extends start ∧ slot.role = .function code captured ∧
    (program.call callee positional keywords).run called =
      ((program.invoke (program.callbackAt 999) registry slot (.holder owner) positional
        keywords).always (·.release owner)).run start ∧
    ∀ arguments, positional = arguments.map (·.1) →
      List.Forall₂ (drained.Accepts program registry)
        (splitKeywords (program.function code).parameters).1 arguments →
      (∀ dict ∈ keywords, 0 < start.heap.dictSize dict →
        (splitKeywords (program.function code).parameters).2 = true) →
      (program.call callee positional keywords).run called =
        ((program.applyFunction (program.callbackAt 999) registry (.holder owner) slot.id code
          captured (collected (program.function code).parameters start.heap (arguments.map (·.2))
            keywords)).always (·.release owner)).run start
  rejected : drained.registryAlive registry = true → ∀ (place : Nat) id ref,
    (splitKeywords (program.function code).parameters).1[place]? = some (.struct id) →
    positional[place]? = some ref → drained.Foreign registry ref →
    ∃ fault after, drained.Untouched after ∧
      (program.call callee positional keywords).run called = (.error fault, after)

/-- A wrapper of another registry stays one when objects are added. -/
theorem World.Foreign.mono {later : World} {ref : Ref} (foreign : world.Foreign registry ref)
    (more : world.Extends later) : later.Foreign registry ref := by
  obtain ⟨content, bridged, wrapper, other⟩ := foreign
  exact ⟨content, bridged, more.wrapper? wrapper, other⟩

/-- A function that leads to its host code converts with the registry that it leads there with. -/
theorem World.Offers.converts {called : World} (sound : world.Sound program held)
    (tidy : world.Tidy) (dict : ∀ ref ∈ keywords, called.heap.isDict ref = true)
    (ended : drainIfDue.run called = (.ok (), world))
    (offers : world.Offers registry callee (.function code))
    (used : ∀ ref ∈ positional, ref.place < world.heap.size) :
    program.Converts registry called world callee code positional keywords := by
  obtain ⟨definition, owner, slot, captured, body, routes, role⟩ := offers.exists_routes
  obtain ⟨cell, present⟩ := routes.present
  have parameters : program.slotParameters slot = (program.function code).parameters := by
    rw [Program.slotParameters, role]
  -- The owner is taken before the entry point runs, and given back in any case.
  have lent : world.Lends (world.retain owner.object) {owner.object} := by
    have lent := (World.Lends.refl world).retain present
    rwa [zero_add] at lent
  have returned : ∀ log, world.Untouched
      (({ world.retain owner.object with log } : World).release owner.object) := by
    intro log
    have noted : world.Lends { world.retain owner.object with log }
        (0 + ([owner.object] : List Ref)) := by
      rw [zero_add]
      exact lent.of_cells (fun _ => rfl) (le_refl _) rfl
    exact (noted.releaseAll tidy).untouched
  have taken : World.Makes program Permission.nothing world [] (world.retain owner.object)
      [owner.object] := .retain (Heap.place_lt_size present)
  have logged : ∀ log, (world.retain owner.object).Extends { world.retain owner.object with log } :=
    fun log => ⟨fun ref _ cell there => ⟨cell, there, rfl⟩, fun _ => rfl, fun _ => rfl⟩
  have soundTaken := (taken.path_new held).sound sound
  have enlarges : world.heap.Enlarges (world.retain owner.object).heap :=
    sound.enlarges lent.size fun ref old => lent.body old
  have entering : (program.call callee positional keywords).run called =
      ((program.runEntry (program.callbackAt 999) definition.entry owner.object positional
        keywords).always (·.release owner.object)).run (world.retain owner.object) := by
    rw [Program.call, Program.callDepth, Program.run_callWithin dict ended, body]
    exact Operation.run_bind_of_ok (Program.run_functionOwner present) _
  refine ⟨fun dead => ⟨_, returned (world.retain owner.object).log, ?_⟩, fun alive => ?_,
    fun alive place id ref type given foreign => ?_⟩
  · rw [entering]
    exact run_always_of_run (Program.run_runEntry_of_dead (routes.mono taken.more) dead) _
  · obtain ⟨log, entry⟩ := Program.exists_run_runEntry (program.callbackAt 999) positional keywords
      soundTaken (routes.mono taken.more) role alive
    have invoking : (program.call callee positional keywords).run called =
        ((program.invoke (program.callbackAt 999) registry slot (.holder owner.object) positional
          keywords).always (·.release owner.object)).run { world.retain owner.object with log } := by
      rw [entering, run_always, run_always, entry]
    refine ⟨owner.object, slot, captured, _, taken.more.trans (logged log), role, invoking, ?_⟩
    rintro arguments rfl accepted entries
    have decoded := Program.decodeArguments_of_accepted enlarges accepted fun argument member =>
      used _ (List.mem_map_of_mem member)
    rw [← parameters] at accepted decoded entries ⊢
    have length : (arguments.map (·.1)).length =
        (Program.splitKeywords (program.slotParameters slot)).1.length := by
      rw [List.length_map, accepted.length_eq]
    have read := Program.arguments_of_decoded length entries decoded
    rw [invoking, run_always, run_always, Program.run_invoke_function read role]
  · rw [← parameters] at type
    obtain ⟨fault, refused⟩ := Program.arguments_of_foreign soundTaken.wired type given
      (foreign.mono taken.more) keywords
    obtain ⟨log, entry⟩ := Program.run_runEntry_of_refused (routes.mono taken.more) alive positional
      keywords fault
    refine ⟨fault, _, returned log, ?_⟩
    rw [entering]
    exact run_always_of_run (entry program _ refused) _

end

/-- Whatever happens, a function converts with a registry each time it is called, as long as it is
there, and so is its module in case it belongs to one. -/
def Program.ConvertsFrom (program : Program) (registry : RegistryId) (world : World)
    (held : Multiset Ref) (callee : Ref) (code : Nat) : Prop :=
  ∀ called left drained positional keywords,
    Path program Permission.anything world held called left → (∀ ref ∈ positional, ref ∈ left) →
    (∀ ref ∈ keywords, called.heap.isDict ref = true) → drainIfDue.run called = (.ok (), drained) →
    drained.heap.holds callee = true → ¬drained.heap.Orphaned callee →
    program.Converts registry called drained callee code positional keywords

theorem Exposed.convertsFrom (honest : program.Honest) {callee : Ref} {code : Nat}
    (exposed : Exposed program registry world held callee (.function code)) :
    program.ConvertsFrom registry world held callee code := by
  intro called left drained positional keywords path passed dict ended there owned
  have reached := (exposed.reached honest).trans path
  have draining : Runs program Permission.anything drainIfDue called 0 (fun _ => 0)
      fun _ _ => True := runs_drainIfDue
  have drain := reached.path_of_ok honest draining ended
  rw [zero_add] at drain
  have later := reached.trans drain
  obtain ⟨cell, present⟩ := Option.isSome_iff_exists.mp there
  rcases (exposed.later (path.trans drain) present).offers honest present with offers | gone
  · exact offers.converts (later.sound honest) (later.tidy honest) dict ended fun ref member =>
      (later.sound honest).used_of_held (passed ref member)
  · exact (owned gone).elim

/--
Contexts are isolated.  In every world that a client comes to, a bridge refuses the wrappers of
all registries but its own, and changes nothing then.  A function that is exported on its own
converts with the registry of the bridge from then on.  A function that is exported into a module
converts with the registry of the slot table of the module, which is that of the bridge if the
module has had no table before.
-/
theorem World.Reached.contexts_isolated (honest : program.Honest)
    (reached : world.Reached program held) (bridge : Bridge) :
    (∀ ref, world.Foreign bridge.registry ref → world.Refuses program bridge.registry ref) ∧
    (∀ item name doc callee after,
      (∀ ref ∈ item.captured.references, ref.place < world.heap.size) →
      (program.createFunction bridge item name doc).run world = (.ok callee, after) →
      program.ConvertsFrom bridge.registry after ({callee} + held) callee item.code) ∧
    (∀ module item name doc callee after,
      (∀ ref ∈ item.captured.references, ref.place < world.heap.size) →
      (program.registerFunction bridge module item name doc).run world = (.ok callee, after) →
      ∃ owner,
        (world.heap.moduleState? module = none → owner = bridge.registry) ∧
        (∀ other slots, world.heap.moduleState? module = some (.slotTable other slots) →
          owner = other) ∧
        program.ConvertsFrom owner after ({callee} + held) callee item.code) := by
  refine ⟨fun ref foreign => foreign.refuses (reached.sound honest).wired,
    fun item name doc callee after used ran => ?_, fun module item name doc callee after used ran => ?_⟩
  · exact (Exposed.created reached used ran rfl (.refl _ _)).convertsFrom honest
  · obtain ⟨contents, owner, edit, slot, reading, tabled, edits, entered, _⟩ :=
      Program.tabled_registerFunction (reached.counted honest) ran
    have table : after.heap.moduleState? module =
        some (.slotTable owner (contents.slots ++ [slot])) := by
      rw [Heap.moduleState?, edits.module? reading]
      exact entered
    have state : world.heap.moduleState? module = contents.state := by
      rw [Heap.moduleState?, reading]
      rfl
    refine ⟨owner, fun stateless => ?_, fun other slots kept => ?_,
      (Exposed.registered reached used ran table (.refl _ _)).convertsFrom honest⟩
    · rw [ModuleBody.tabled, ← state, stateless] at tabled
      exact (Payload.slotTable.inj (Option.some.inj tabled)).1.symm
    · rw [ModuleBody.tabled, ← state, kept] at tabled
      dsimp only at tabled
      rw [← state, kept] at tabled
      exact (Payload.slotTable.inj (Option.some.inj tabled)).1.symm

namespace Figures

/-- A bridge with a second interpreter. -/
def second : Bridge := ⟨⟨1⟩, ⟨1⟩⟩

/-- A point is held, and so are a module and a bridge, when a second interpreter is started after
the first one has been finalized. -/
def relay : List Request :=
  [.connect ⟨1⟩, .start ⟨"", [], 128⟩, .finalize ⟨0⟩,
    .toObject bridge (.struct ⟨0⟩) (.struct [.int 1, .int 2])] ++ opening

def relayed : World := Request.played Figures.program relay

set_option maxRecDepth 10000 in
/-- The module belongs to the first bridge, and has no functions yet. -/
theorem relayed_facts :
    ((Request.played Figures.program (relay.drop 3)).interpreter ⟨0⟩).owners = 2 ∧
    ((Request.played Figures.program (relay.drop 1)).interpreter ⟨1⟩).owners = 1 ∧
    relayed.registryAlive ⟨0⟩ = true ∧
    (relayed.heap.wrapper? ⟨7⟩).map (fun parts => parts.2.registry) = some ⟨0⟩ ∧
    relayed.heap.moduleState? ⟨4⟩ = some (.slotTable ⟨0⟩ []) ∧
    ((Program.slotTable second.registry ⟨4⟩).run relayed).1 = .ok [] ∧
    ((addFunction ⟨4⟩ (Figures.program.definition (.slot 0)
      ⟨0, "pick", "pick", "", .function 0 .unit⟩)).run
        ((Program.slotTable second.registry ⟨4⟩).run relayed).2).1 = .ok ⟨9⟩ := by
  cbv

theorem playable_relay : Request.Playable Figures.program relay := by
  obtain ⟨first, last, _⟩ := relayed_facts
  have unborrowed : ∀ {used : Ref → Prop}, ∀ ref ∈ ([] : List Ref), used ref :=
    fun _ member => by cases member
  refine ⟨⟨⟨playable_wrapping, rfl, unborrowed, ?_⟩, rfl, unborrowed, trivial⟩, rfl, unborrowed, ?_⟩
  · exact Nat.lt_of_lt_of_eq Nat.zero_lt_two first.symm
  · exact Nat.lt_of_lt_of_eq Nat.zero_lt_one last.symm

theorem reached_relayed : relayed.Reached Figures.program (Request.kept Figures.program relay) :=
  ⟨_, _, playable_relay.session, .refl _ _⟩

/-- What comes of an export into the module through the second bridge, but for a log record. -/
def crossed (text : String) : World :=
  (Program.withSlot ((addFunction ⟨4⟩ (Figures.program.definition (.slot 0)
    ⟨0, "pick", "pick", "", .function 0 .unit⟩)).run
      ((Program.slotTable second.registry ⟨4⟩).run relayed).2).2 ⟨4⟩
        ⟨0, "pick", "pick", "", .function 0 .unit⟩).note .debug text

set_option maxRecDepth 10000 in
theorem run_registerFunction_crossed : ∃ text,
    (Figures.program.registerFunction second ⟨4⟩ pick "pick" "").run relayed =
      (.ok ⟨9⟩, crossed text) := by
  obtain ⟨_, _, _, _, _, tabling, adding⟩ := relayed_facts
  have planned : Figures.program.functionSlot 0 pick "pick" ""
      (((Program.slotTable second.registry ⟨4⟩).run relayed).2.heap.globalNames ⟨4⟩) =
        ⟨0, "pick", "pick", "", .function 0 .unit⟩ := rfl
  exact Program.run_registerFunction_of_ok (Prod.ext tabling rfl) planned (by decide)
    (Prod.ext adding rfl)

/-- The first bridge is let go, and with it the last owner of its registry. -/
def parted (text : String) : World := ((Program.disconnect bridge).run (crossed text)).2

set_option maxRecDepth 10000 in
/-- The function is in the module before and after the first bridge is let go. -/
theorem crossed_facts (text : String) :
    (crossed text).heap.moduleState? ⟨4⟩ =
      some (.slotTable ⟨0⟩ [⟨0, "pick", "pick", "", .function 0 .unit⟩]) ∧
    ((crossed text).interpreter ⟨0⟩).owners = 2 ∧
    ((Program.disconnect bridge).run (crossed text)).1 = .ok () ∧
    (parted text).registryAlive ⟨0⟩ = false ∧ (parted text).registryAlive ⟨1⟩ = true ∧
    (parted text).current = some ⟨1⟩ ∧ ((parted text).queue ⟨1⟩).isDue = false ∧
    (parted text).heap.holds ⟨4⟩ = true ∧ (parted text).heap.holds ⟨9⟩ = true ∧
    (parted text).heap.body ⟨9⟩ = .function (Figures.program.definition (.slot 0)
      ⟨0, "pick", "pick", "", .function 0 .unit⟩) (.module ⟨4⟩) := by
  cbv

end Figures

/-- The first registry is there when the second bridge exports a function into a module that the
first bridge has made. -/
theorem World.Reached.contexts_isolated_relayed : ∃ (world after : World) (held : Multiset Ref),
    world.Reached Figures.program held ∧ world.registryAlive ⟨0⟩ = true ∧
      world.Foreign ⟨1⟩ ⟨7⟩ ∧ world.Refuses Figures.program ⟨1⟩ ⟨7⟩ ∧
      (Figures.program.registerFunction Figures.second ⟨4⟩ Figures.pick "pick" "").run world =
        (.ok ⟨9⟩, after) ∧
      Figures.program.ConvertsFrom ⟨0⟩ after ({⟨9⟩} + held) ⟨9⟩ 0 := by
  obtain ⟨_, _, alive, wrapped, table, _⟩ := Figures.relayed_facts
  obtain ⟨⟨content, bridged⟩, wrapper, registry⟩ := Option.map_eq_some_iff.mp wrapped
  have foreign : Figures.relayed.Foreign ⟨1⟩ ⟨7⟩ :=
    ⟨content, bridged, wrapper, by rw [registry]; decide⟩
  obtain ⟨text, ran⟩ := Figures.run_registerFunction_crossed
  obtain ⟨refused, _, registered⟩ :=
    Figures.reached_relayed.contexts_isolated Figures.honest Figures.second
  have nothing : ∀ ref ∈ ([] : List Ref), ref.place < Figures.relayed.heap.size := by simp
  obtain ⟨owner, _, kept, converts⟩ := registered ⟨4⟩ Figures.pick "pick" "" _ _ nothing ran
  rw [kept _ _ table] at converts
  exact ⟨_, _, _, Figures.reached_relayed, alive, foreign, refused ⟨7⟩ foreign, ran, converts⟩

set_option maxRecDepth 10000 in
/-- A function that was exported through the second bridge, into a module that the first one had
made, cannot be called when the first registry is gone, although the second one is there. -/
theorem World.Reached.crossed_released :
    ∃ (world after later final : World) (held : Multiset Ref),
      world.Reached Figures.program held ∧ world.registryAlive ⟨0⟩ = true ∧
      (Figures.program.registerFunction Figures.second ⟨4⟩ Figures.pick "pick" "").run world =
        (.ok ⟨9⟩, after) ∧
      (Program.disconnect Figures.bridge).run after = (.ok (), later) ∧
      later.registryAlive ⟨0⟩ = false ∧ later.registryAlive ⟨1⟩ = true ∧
      (Figures.program.call ⟨9⟩ [] none).run later = (.error (.raised .registryReleased), final) := by
  obtain ⟨text, ran⟩ := Figures.run_registerFunction_crossed
  obtain ⟨table, owners, ended, dead, alive, current, idle, moduleThere, there, owned⟩ :=
    Figures.crossed_facts text
  obtain ⟨_, _, before, _⟩ := Figures.relayed_facts
  have nothing : ∀ {used : Ref → Prop}, ∀ ref ∈ ([] : List Ref), used ref := by simp
  have reached := Figures.reached_relayed
  have captured : ∀ ref ∈ Figures.pick.captured.references,
      ref.place < Figures.relayed.heap.size := nothing
  have exposed := Exposed.registered reached captured ran table (.refl _ _)
  have leaving : (Program.disconnect Figures.bridge).run (Figures.crossed text) =
      (.ok (), Figures.parted text) := Prod.ext ended rfl
  have allowed : (Request.disconnect Figures.bridge).Allowed Figures.program (Figures.crossed text) :=
    ⟨nothing, Nat.lt_of_lt_of_eq Nat.zero_lt_two owners.symm⟩
  have requested : ((Request.disconnect Figures.bridge).run Figures.program).run
      (Figures.crossed text) = (.ok [], Figures.parted text) := Operation.run_bind_of_ok leaving _
  have sound := (exposed.reached Figures.honest).sound Figures.honest
  have free : (Request.disconnect Figures.bridge).spent = 0 := rfl
  have path := (Session.path_request Figures.honest (by rwa [free, zero_add]) allowed
    requested).frame ({⟨9⟩} + Request.kept Figures.program Figures.relay)
  rw [free, zero_add] at path
  generalize Figures.parted text = later at *
  have orphaned : ¬later.heap.Orphaned ⟨9⟩ := by
    rintro ⟨definition, module, body, gone⟩
    rw [body, Body.function.injEq, Owner.module.injEq] at owned
    obtain ⟨_, rfl⟩ := owned
    rw [Heap.holds, gone] at moduleThere
    cases moduleThere
  have idling : drainIfDue.run later = (.ok (), later) := by
    refine run_drainIfDue_of_idle fun id bound => ?_
    rw [current, Option.some.injEq] at bound
    rw [← bound]
    exact idle
  have converts := exposed.convertsFrom Figures.honest later _ later [] none path nothing (by simp)
    idling there orphaned
  obtain ⟨final, _, called⟩ := converts.released (by rw [dead]; exact Bool.false_ne_true)
  exact ⟨_, _, later, final, _, reached, before, ran, leaving, dead, alive, called⟩

end HostBridge
