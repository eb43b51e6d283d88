import HostBridge.Proofs.Building.Failure
import HostBridge.Proofs.Dict.Orderly

/-!
# Host code keeps heaps canonical

Encoding enters keys into dicts, and the keys are objects because the references in a host value
are.  So what is known about the references of running code is used here, along with the contracts
of what has run before.
-/

namespace HostBridge

variable {program : Program} {world : World} {held frame : Multiset Ref}

/-- A native entry point that keeps the heap canonical where its arguments are objects. -/
def Op.OrderlyFor {α : Type} (program : Program) (action : Op α) (borrowed : List Ref) : Prop :=
  ∀ world held, world.Reached program held → (∀ ref ∈ borrowed, ref.place < world.heap.size) →
    Op.Orderly action world

/-- Native entry points make no second nothing, and enter keys into dicts as the runtime does. -/
structure Program.Orderly (program : Program) : Prop where
  nativeFunction : ∀ name self positional keywords,
    (program.natives.function name self positional keywords).OrderlyFor program
      (self :: positional ++ keywords.toList)
  nativeGetter : ∀ name self closure,
    (program.natives.getter name self closure).OrderlyFor program [self]
  nativeSetter : ∀ name self value closure,
    (program.natives.setter name self value closure).OrderlyFor program [self, value]
  nativeMaker : ∀ name self positional keywords,
    (program.natives.maker name self positional keywords).OrderlyFor program
      (self :: positional ++ keywords.toList)
  nativeAllocator : ∀ name type,
    (program.natives.allocator name type).OrderlyFor program [type]

/-- Calls back into the runtime that keep the heap canonical. -/
def Callback.Orderly (program : Program) (callback : Callback) : Prop :=
  ∀ callee arguments, (callback callee arguments).OrderlyFor program (callee :: arguments)

namespace Op

variable {α β : Type}

/-- What an operation hands over is held in a world that can be reached. -/
theorem Runs.reached {action : Op α} {value : α} {after : World} {taken : Multiset Ref}
    {given : α → Multiset Ref} {post : α → World → Prop} (honest : program.Honest)
    (runs : Runs program .anything action world taken given post)
    (reached : world.Reached program (taken + frame))
    (ran : action.run world = (.ok value, after)) : after.Reached program (given value + frame) :=
  reached.trans ((runs.ok (reached.sound honest) ran).1.frame frame)

/-- The second of two operations runs with the references that the first one hands over. -/
theorem Runs.orderly_bind {action : Op α} {next : α → Op β} {taken : Multiset Ref}
    {given : α → Multiset Ref} {post : α → World → Prop} (honest : program.Honest)
    (runs : Runs program .anything action world taken given post)
    (reached : world.Reached program (taken + frame)) (first : Orderly action world)
    (later : ∀ value after, World.Leads program .anything world after →
      after.Reached program (given value + frame) → post value after →
        Orderly (next value) after) :
    Orderly (action >>= next) world := by
  refine first.bind fun value after ran => ?_
  obtain ⟨path, holds⟩ := runs.ok (reached.sound honest) ran
  exact later value after ⟨_, _, path⟩ (runs.reached honest reached ran) holds

/-! ## Host code -/

variable {registry : RegistryId} {type : HostType} {value : HostValue} {callback : Callback}
  {remains : HostValue → Prop}

theorem orderly_encode (honest : program.Honest) (reached : world.Reached program held)
    (fit : value.fits program type = true)
    (used : ∀ ref ∈ value.references, ref.place < world.heap.size) :
    Orderly (Encode.value program registry type value) world := by
  intro canonical
  have serves := reached.serves honest registry
  have yields : Encode.YieldsValue program _ world registry type value world :=
    Encode.yields_value serves value fit used
  have run := yields 0 (.refl world 0)
  rcases ended : (Encode.value program registry type value).run world with ⟨result, after⟩
  rw [ended] at run
  cases result with
  | ok ref => exact run.1.canonical canonical
  | error fault => exact run.1.canonical canonical

theorem orderly_encodeOwned (honest : program.Honest)
    (reached : world.Reached program (value.references + frame))
    (fit : value.fits program type = true) :
    Orderly ((Encode.value program registry type value).always (·.releaseAll value.references))
      world :=
  .always (orderly_encode honest reached fit fun _ member =>
    (reached.sound honest).used_of_held (by simp [member])) fun _ canonical =>
      canonical.releaseAll _

/-- A routine is resumed in worlds that can be reached, with what it has obtained. -/
theorem orderly_runRoutine (honest : program.Honest)
    (calls : Callback.Counts program .anything callback) (orderly : callback.Orderly program)
    {routine : Routine} {places : Nat} (trusted : routine.Honest program remains type places) :
    ∀ (world : World) (held : List Ref) (frame : Multiset Ref), world.heap.size = places →
      world.Reached program (held + frame) → Orderly (runRoutine callback held routine) world := by
  induction trusted with
  | ended => exact fun _ _ _ _ _ => .pure _
  | @makeText places text resume later ih =>
    rintro world held frame rfl reached
    have plain : (Body.text text).Plain program := trivial
    have made : Runs program .anything (place (.text text)) world 0 (fun ref => {ref})
        fun _ _ => True := runs_placeScalar plain rfl
    refine made.orderly_bind honest (by rwa [zero_add]) (orderly_place (by trivial))
      fun ref after leads reached' _ => ?_
    have there : ref.place < after.heap.size :=
      (reached'.sound honest).used_of_held (by simp)
    refine ih ref _ leads.grows.places there after (held ++ [ref]) frame rfl ?_
    rwa [← Multiset.coe_add, Multiset.coe_singleton, add_comm (held : Multiset Ref), add_assoc]
  | @call places callee arguments resume calleeUsed used returned raised ihReturned ihRaised =>
    rintro world held frame rfl reached canonical
    have inRange : ∀ ref ∈ callee :: arguments, ref.place < world.heap.size :=
      List.forall_mem_cons.mpr ⟨calleeUsed, used⟩
    have canonical' := orderly callee arguments world _ reached inRange canonical
    have framed : world.Sound program (0 + (held + frame)) := by
      rw [zero_add]
      exact reached.sound honest
    have run := calls callee arguments world calleeUsed used (held + frame) framed
    rw [runRoutine, run_ofFunction]
    rcases ended : (callback callee arguments).run world with ⟨result, after⟩
    rw [ended] at run canonical'
    cases result with
    | ok ref =>
      have path := run.1.frame (held + frame)
      rw [zero_add] at path
      have reached' := reached.trans path
      refine ihReturned after.heap ref path.grows.places ((reached'.sound honest).used_of_held
        (by simp)) after (held ++ [ref]) frame rfl ?_ canonical'
      rwa [← Multiset.coe_add, Multiset.coe_singleton, add_comm (held : Multiset Ref), add_assoc]
    | error fault =>
      have path : Path program .anything world (0 + (held + frame)) after (0 + (held + frame)) :=
        run.frame (held + frame)
      rw [zero_add] at path
      cases fault with
      | raised exception =>
        exact ihRaised after.heap exception path.grows.places after held frame rfl
          (reached.trans path) canonical'
      | _ => exact canonical'.releaseAll held

/-- What comes after a routine has ended can be run anywhere. -/
theorem orderly_settle {store : HostValue → Op Unit}
    (stores : ∀ value world, Orderly (store value) world) (subject : HostValue)
    (obtained passed : List Ref) (result : Except String HostValue) :
    Orderly
      (do
        store (← adopt subject)
        releaseAll obtained
        releaseAll passed
        match result with
        | .ok result => return result
        | .error message => panic (.hostCode message)) world := by
  refine .bind (orderly_adopt _) fun _ _ _ => .bind (stores _ _) fun _ _ _ => ?_
  refine .bind (orderly_releaseAll _) fun _ _ _ => .bind (orderly_releaseAll _) fun _ _ _ => ?_
  cases result with
  | ok value => exact .pure _
  | error message => exact .panic _

theorem orderly_perform (honest : program.Honest)
    (calls : Callback.Counts program .anything callback) (orderly : callback.Orderly program)
    {run : Behaviour} {parameters : List HostType} {subject : HostValue}
    {arguments : List HostValue} {store : HostValue → Op Unit}
    (trusted : run.Honest program remains parameters type) (left : remains subject)
    (used : ∀ ref ∈ subject.references, ref.place < world.heap.size)
    (fit : HostValue.fitsAll program parameters arguments = true)
    (stores : ∀ value world, Orderly (store value) world)
    (reached : world.Reached program (HostValue.referencesAll arguments + frame)) :
    Orderly (perform callback run subject arguments store) world := by
  have valid : HostValue.ValidAll program world.heap parameters arguments :=
    ⟨fit, fun ref member => (reached.sound honest).used_of_held (by simp [member])⟩
  refine .heap_bind (.bind (.undoing ?_ fun _ canonical => canonical.releaseAll _) ?_)
  · exact orderly_runRoutine honest calls orderly (trusted world.heap subject arguments left used
      valid) world [] _ rfl (by rwa [Multiset.coe_nil, zero_add])
  · rintro ⟨outcome, obtained⟩ _ _
    dsimp only
    cases outcome.result with
    | ok value =>
      exact .bind (orderly_adopt _) fun adopted _ _ =>
        orderly_settle stores outcome.subject obtained _ (.ok adopted)
    | error message => exact orderly_settle stores outcome.subject obtained _ (.error message)

/-- Adopting the arguments of a call, then an operation that owns them. -/
theorem orderly_adoptAll_bind {types : List HostType}
    {values : List HostValue} {next : List HostValue → Op α}
    (reached : world.Reached program held)
    (valid : HostValue.ValidAll program world.heap types values)
    (later : ∀ adopted after, world.Extends after → World.Leads program .anything world after →
      HostValue.fitsAll program types adopted = true →
      after.Reached program (HostValue.referencesAll adopted + held) →
        Orderly (next adopted) after) :
    Orderly (adoptAll values >>= next) world := by
  have adopting : Makes program .anything (adoptAll values) world [] HostValue.referencesAll
      fun adopted _ => ∀ types, HostValue.fitsAll program types adopted =
        HostValue.fitsAll program types values := makes_adoptAll valid.2
  obtain ⟨adopted, after, ended, makes, fits⟩ := adopting
  refine (orderly_adoptAll values).bind fun given after' ran => ?_
  obtain ⟨rfl, rfl⟩ : adopted = given ∧ after = after' := by
    rw [ended] at ran
    cases ran
    exact ⟨rfl, rfl⟩
  have path := makes.path_new held
  refine later adopted after makes.more ⟨_, _, path⟩ (by rw [fits]; exact valid.1) ?_
  rw [add_comm]
  exact reached.trans path

end Op

namespace Op.Orderly

variable {α : Type}

/-- Looking something up, then an operation on what has been found. -/
theorem look_bind {β : Type} {action : Op β} {next : β → Op α} (looks : Looks action)
    (later : ∀ value, action.run world = (.ok value, world) → Orderly (next value) world) :
    Orderly (action >>= next) world := by
  refine .bind (.of_looks looks) fun value after ran => ?_
  have same : after = world := by
    have stays := looks world
    rwa [ran] at stays
  rw [same] at ran ⊢
  exact later value ran

theorem pure_bind {β : Type} {value : β} {next : β → Op α} (later : Orderly (next value) world) :
    Orderly (Pure.pure value >>= next) world := later

/-- A log record, then an operation in a world that can be reached as well. -/
theorem note_bind {level : Level} {text : String} {next : Unit → Op α}
    (reached : world.Reached program held)
    (later : (world.note level text).Reached program held →
      Orderly (next ()) (world.note level text)) :
    Orderly (note level text >>= next) world := by
  refine .bind (orderly_note _ _) fun _ _ ran => ?_
  cases ran
  exact later (reached.trans (path_note level text))

theorem typeSlot_bind {bridged : BridgedType} {id : Nat} {next : Slot → Op α}
    (later : ∀ slot, bridged.slots[id]? = some slot → Orderly (next slot) world) :
    Orderly (Program.typeSlot bridged id >>= next) world := by
  unfold Program.typeSlot
  split
  · rename_i slot found
    exact later slot found
  · exact .raise _

theorem liveRegistry_bind {id : RegistryId} {next : RegistryId → Op α}
    (later : Orderly (next id) world) : Orderly (liveRegistry id >>= next) world := by
  refine .look_bind (looks_liveRegistry id) fun found ran => ?_
  rw [liveRegistry, Operation.run_bind_of_ok (run_world world)] at ran
  split at ran
  · cases ran
    exact later
  · cases ran

theorem wrapperParts_bind {ref : Ref} {next : Held × BridgedType × RegistryId → Op α}
    (later : ∀ content bridged, world.heap.wrapper? ref = some (content, bridged) →
      Orderly (next (content, bridged, bridged.registry)) world) :
    Orderly (Program.wrapperParts ref >>= next) world := by
  unfold Program.wrapperParts
  rw [bind_assoc]
  refine .heap_bind ?_
  cases wrapper : world.heap.wrapper? ref with
  | none => exact .raise _
  | some parts =>
    obtain ⟨content, bridged⟩ := parts
    dsimp only
    rw [bind_assoc]
    exact .liveRegistry_bind (later content bridged wrapper)

end Op.Orderly

namespace Program

open Op

variable {callback : Callback} {self : Ref} {positional : List Ref} {keywords : Option Ref}

/-! ## Entry points -/

section

variable (honest : program.Honest) (calls : Callback.Counts program .anything callback)
  (orderly : callback.Orderly program) (reached : world.Reached program held)
  (used : ∀ ref ∈ positional, ref.place < world.heap.size)
  (keywordsUsed : ∀ ref ∈ keywords, ref.place < world.heap.size)

include honest calls orderly reached used keywordsUsed

theorem orderly_invoke {registry : RegistryId} {slot : Slot} {site : CallSite}
    (suits : Suits world slot site) :
    Op.Orderly (program.invoke callback registry slot site positional keywords) world := by
  have sound := reached.sound honest
  have free : ∀ body, Permission.anything body := fun _ => trivial
  refine .heap_bind (.ofExcept_bind fun values read => ?_)
  have valid := valid_arguments honest.founded sound used keywordsUsed read
  cases role : slot.role with
  | method owner index =>
    cases site with
    | holder ref => exact .raise _
    | wrapper ref =>
      dsimp only
      cases wrapped : world.heap.wrapped? ref with
      | none => exact .raise _
      | some parts =>
        obtain ⟨receiver, bridged⟩ := parts
        obtain ⟨content, wrapper⟩ := Heap.wrapper?_of_wrapped? wrapped
        have host := suits.method owner index ref content bridged role rfl wrapper
        have behind := Decode.valid_wrapped? sound wrapped
        rw [host] at behind
        rw [slotParameters, role] at valid
        refine orderly_adoptAll_bind reached valid fun adopted after more leads fit reached' => ?_
        have trusted := honest.method owner index
        have left := leads.usedAll behind.used
        refine (runs_perform calls trusted behind.fit left fit ?_).orderly_bind honest reached'
          (orderly_perform honest calls orderly trusted behind.fit left fit ?_ reached')
          fun result _ _ reached'' fits => orderly_encodeOwned honest reached'' fits
        · split
          · have exchange : Stores program .anything
                (fun value => value.fits program (.struct bridged.host) = true)
                (Op.exchange ref []) after :=
              stores_exchange (fun _ _ _ => free _) (more.wrapper? wrapper)
            rwa [host] at exchange
          · exact stores_discard _ _
        · intro value world
          split
          · exact orderly_exchange _ _ _
          · exact orderly_discard _
  | function code captured =>
    rw [slotParameters, role] at valid
    have places := suits.captured
    rw [Slot.references, role] at places
    refine orderly_adoptAll_bind reached valid fun adopted after more leads fit reached' => ?_
    have trusted := honest.function code
    have left := leads.usedAll places
    refine (runs_perform calls trusted trivial left fit ?_).orderly_bind honest reached'
      (orderly_perform honest calls orderly trusted trivial left fit ?_ reached')
      fun result _ _ reached'' fits => orderly_encodeOwned honest reached'' fits
    · split
      · exact stores_discard _ _
      · exact stores_discard _ _
      · exact stores_captured free _ _ _ _
    · intro value world
      split
      · exact orderly_discard _
      · exact orderly_discard _
      · exact .bind (orderly_storeCaptured _ _ _) fun _ _ _ => orderly_discard _
  | construct code => exact .raise _
  | get owner index => exact .raise _
  | set owner index => exact .raise _

theorem orderly_dispatch {id : Nat} :
    Op.Orderly (program.dispatch callback self id positional keywords) world := by
  have sound := reached.sound honest
  refine .heap_bind ?_
  cases wrapper : world.heap.wrapper? self with
  | some parts =>
    obtain ⟨content, bridged⟩ := parts
    refine .liveRegistry_bind (.typeSlot_bind fun slot found => .pure_bind ?_)
    refine .note_bind reached fun noted => ?_
    have suits := suits_wrapper sound wrapper found
    exact orderly_invoke honest calls orderly noted used keywordsUsed
      ⟨suits.method, suits.captured⟩
  | none =>
    cases state : world.heap.moduleState? self with
    | none => exact .raise _
    | some payload =>
      cases payload with
      | slotTable registry slots =>
        refine .liveRegistry_bind ?_
        cases found : slots[id]? with
        | none => exact .raise _
        | some slot =>
          refine .pure_bind (.note_bind reached fun noted => ?_)
          have places : ∀ inner ∈ slot.references, inner.place < world.heap.size :=
            fun inner member => used_of_slotTable sound state (List.mem_of_getElem? found) member
          exact orderly_invoke honest calls orderly noted used keywordsUsed
            ⟨(suits_holder places).method, places⟩
      | _ => exact .raise _

theorem orderly_dispatchAdHoc :
    Op.Orderly (program.dispatchAdHoc callback self positional keywords) world := by
  refine .heap_bind ?_
  cases payload : world.heap.capsule? self with
  | none => exact .raise _
  | some content =>
    cases content with
    | adHoc registry slot =>
      refine .liveRegistry_bind (orderly_invoke honest calls orderly reached used keywordsUsed
        (suits_holder fun inner member => ?_))
      obtain ⟨name, reading⟩ := Heap.exists_capsule payload
      refine (reached.sound honest).used_of_body self ?_
      rw [reading]
      exact member
    | _ => exact .raise _

theorem orderly_construct :
    Op.Orderly (program.construct callback self positional keywords) world := by
  have sound := reached.sound honest
  have free : ∀ body, Permission.anything body := fun _ => trivial
  refine .wrapperParts_bind fun content bridged wrapper => ?_
  dsimp only
  cases bridged.maker with
  | none => exact .raise _
  | some id =>
    refine .typeSlot_bind fun slot found => ?_
    have concerns := concerns_of_slot sound wrapper found
    cases role : slot.role with
    | construct code =>
      rw [role] at concerns
      obtain ⟨subject, _⟩ := concerns
      refine .heap_bind (.ofExcept_bind fun values read => ?_)
      have valid := valid_arguments honest.founded sound used keywordsUsed read
      rw [slotParameters, role] at valid
      cases wrapped : world.heap.wrapped? self with
      | none => exact .raise _
      | some parts =>
        obtain ⟨fresh, bridged'⟩ := parts
        dsimp only
        cases style : (program.maker code).style with
        | receiver =>
          refine orderly_adoptAll_bind reached valid fun adopted after more leads fit reached' => ?_
          have behind : fresh.Valid program world.heap (.struct bridged.host) := by
            obtain ⟨content', wrapper'⟩ := Heap.wrapper?_of_wrapped? wrapped
            rw [wrapper, Option.some.injEq, Prod.mk.injEq] at wrapper'
            rw [wrapper'.2]
            exact Decode.valid_wrapped? sound wrapped
          have run := honest.receiver code style
          rw [subject] at run
          exact .bind (orderly_perform honest calls orderly run behind.fit
              (leads.usedAll behind.used) fit (fun _ _ => orderly_exchange _ _ _) reached')
            fun _ _ _ => orderly_discard _
        | factory =>
          refine orderly_adoptAll_bind reached valid fun adopted after more leads fit reached' => ?_
          have unit : ∀ ref ∈ HostValue.unit.references, ref.place < after.heap.size :=
            fun ref member => by cases member
          exact .bind (orderly_perform honest calls orderly (honest.factory code style) trivial unit
              fit (fun _ _ => orderly_discard _) reached')
            fun _ _ _ => orderly_exchange _ _ _
    | _ => exact .raise _

end

end Program

end HostBridge
