import HostBridge.Proofs.Codec.Encoding
import HostBridge.Proofs.Exporting.Call
import HostBridge.Proofs.Ownership.Lifecycle
import HostBridge.Proofs.Sharing.Write
import HostBridge.Proofs.Wiring.Calls

/-!
# When host code has returned

What the code leaves of the value that it worked on is kept, and what it was given is let go.  Its
result stays with the bridge, which makes an object for it.  No object changes on the way but the
one that keeps what the code has left.
-/

namespace HostBridge

open Op

variable {program : Program} {world before after : World} {held : Multiset Ref}

/-! ## Values behind wrappers -/

/-- The value behind a wrapper. -/
def World.behind? (world : World) (ref : Ref) : Option HostValue :=
  (world.heap.wrapped? ref).map (·.1)

namespace World

theorem behind?_of_wrapped? {ref : Ref} {value : HostValue} {bridged : BridgedType}
    (wrapped : world.heap.wrapped? ref = some (value, bridged)) :
    world.behind? ref = some value := by
  rw [behind?, wrapped]
  rfl

/-- A wrapper that is there has a value of its struct behind it. -/
theorem Wired.wrapped?_of_behind? (wired : world.Wired program) {ref : Ref} {content : Held}
    {bridged : BridgedType} {value : HostValue}
    (wrapper : world.heap.wrapper? ref = some (content, bridged))
    (behind : world.behind? ref = some value) :
    world.heap.wrapped? ref = some (value, bridged) := by
  obtain ⟨part, wrapped, _⟩ := wired.exists_wrapped? wrapper
  rw [behind?_of_wrapped? wrapped] at behind
  cases behind
  exact wrapped

/-- The value that a wrapper shows a place of is there, and so is the place. -/
theorem Wired.shown (wired : world.Wired program) {ref : Ref} {content : Held}
    {bridged : BridgedType} (wrapper : world.heap.wrapper? ref = some (content, bridged)) :
    ∃ cell value part, world.heap.cell? (Heap.location ref content).1 = some cell ∧
      world.heap.ownedValue? (Heap.location ref content).1 = some value ∧
      value.at? (Heap.location ref content).2 = some part ∧
      world.heap.wrapped? ref = some (part, bridged) := by
  obtain ⟨value, rootType, owner, _, typed⟩ := wired.location wrapper
  obtain ⟨cell, _, _, present, _, _⟩ := Heap.wrapper?_eq_some.mp owner
  obtain ⟨part, reading, _⟩ := HostValue.at?_of_fits (wired.fits_owned owner) typed
  have owned := Heap.ownedValue?_of_wrapper? owner
  exact ⟨cell, value, part, present, owned, reading,
    Heap.wrapped?_eq_some.mpr ⟨content, value, wrapper, owned, reading⟩⟩

section

variable {ref : Ref} {content content' : Held} {bridged bridged' : BridgedType}

/-- What changes no object leaves the value behind a wrapper, as long as the wrapper is there. -/
theorem Leads.behind? (leads : World.Leads program Permission.nothing before after)
    (wired : before.Wired program) (wired' : after.Wired program)
    (wrapper : before.heap.wrapper? ref = some (content, bridged))
    (wrapper' : after.heap.wrapper? ref = some (content', bridged')) :
    after.behind? ref = before.behind? ref := by
  obtain ⟨_, location⟩ := leads.same_wrapper wrapper wrapper'
  obtain ⟨_, value, part, _, owned, reading, wrapped⟩ := wired.shown wrapper
  obtain ⟨cell, value', part', present, owned', reading', wrapped'⟩ := wired'.shown wrapper'
  rw [location] at present owned' reading'
  rw [leads.keepsValues Permission.spares_nothing _ value cell owned present] at owned'
  cases owned'
  rw [reading] at reading'
  cases reading'
  rw [behind?_of_wrapped? wrapped, behind?_of_wrapped? wrapped']

/-- A wrapper that is written through shows what was written. -/
theorem Writes.behind? {given left : Multiset Ref} {new : HostValue}
    (writes : before.Writes program given after left (Heap.location ref content).1
      (Heap.location ref content).2 new)
    (wired : before.Wired program) (wired' : after.Wired program)
    (wrapper : before.heap.wrapper? ref = some (content, bridged))
    (wrapper' : after.heap.wrapper? ref = some (content', bridged')) :
    after.behind? ref = some new := by
  obtain ⟨_, location⟩ := writes.leads.same_wrapper wrapper wrapper'
  obtain ⟨_, value, part, _, owned, reading, _⟩ := wired.shown wrapper
  obtain ⟨cell, value', part', present, owned', reading', wrapped'⟩ := wired'.shown wrapper'
  rw [location] at present owned' reading'
  rw [writes.written value cell owned present] at owned'
  cases owned'
  rw [HostValue.at?_put_same new reading] at reading'
  cases reading'
  exact behind?_of_wrapped? wrapped'

end

end World

/-! ## Registered types -/

namespace Op

/-- A way to keep what host code leaves behind that leaves registered types alone. -/
def SparesTypes (store : HostValue → Op Unit) : Prop :=
  ∀ value world id, ((((store value).run world).2).registry id).types = (world.registry id).types

theorem sparesTypes_discard : SparesTypes discard :=
  fun value world id => world.types_releaseAll value.references id

theorem sparesTypes_exchange (ref : Ref) : SparesTypes (exchange ref []) := by
  intro value world id
  rw [exchange, Operation.run_bind_of_ok (run_heap world)]
  cases world.heap.wrapper? ref with
  | none => exact sparesTypes_discard value world id
  | some parts =>
    obtain ⟨content, bridged⟩ := parts
    dsimp only
    split
    · exact sparesTypes_discard value world id
    · rename_i old _
      rw [Operation.run_bind_of_ok (run_change world _)]
      refine (sparesTypes_discard old _ id).trans ?_
      unfold World.putValue
      split <;> rfl

theorem sparesTypes_storeCaptured (owner : Ref) (slot : Nat) :
    SparesTypes (storeCaptured owner slot) := by
  have replaced : ∀ (world : World) (body : Body) id,
      ((world.replace owner body).registry id).types = (world.registry id).types := by
    intro world body id
    rw [World.replace, World.types_releaseAll]
    exact congrArg Registry.types (world.registry_retainAll body.references id)
  intro value world id
  rw [storeCaptured]
  dsimp only
  rw [Operation.run_bind_of_ok (run_heap world)]
  split
  · split
    · exact replaced world _ id
    · rfl
  · exact replaced world _ id
  · rfl

theorem sparesTypes_storeState (site : Program.CallSite) (number : Nat) (captured : HostValue) :
    SparesTypes (Program.storeState site number captured) := by
  intro value world id
  unfold Program.storeState
  split
  · exact sparesTypes_discard value world id
  · exact sparesTypes_discard value world id
  · rename_i ref _
    obtain ⟨_, middle, stored⟩ := sure_storeCaptured ref number value world
    rw [Operation.run_bind_of_ok stored]
    refine (sparesTypes_discard value middle id).trans ?_
    have kept := sparesTypes_storeCaptured ref number value world id
    rwa [stored] at kept

theorem sparesTypes_storeReceiver (method : MethodDecl) (ref : Ref) :
    SparesTypes (Program.storeReceiver method ref) := by
  intro value world id
  rw [Program.storeReceiver]
  split
  · exact sparesTypes_exchange ref value world id
  · exact sparesTypes_discard value world id

/-! ## Settling -/

/-- What the bridge does when host code has returned. -/
def settle (store : HostValue → Op Unit) (more passed : List Ref) (left result : HostValue) :
    Op HostValue := do
  let result ← adopt result
  store (← adopt left)
  releaseAll more
  releaseAll passed
  return result

/-- How settling ends: what the code has left is stored, nothing changes after that, and the
result belongs to the bridge. -/
structure Settled (program : Program) (touch : Permission) (store : HostValue → Op Unit)
    (more passed : List Ref) (left result : HostValue) (world stored settled : World) : Prop where
  kept : (store (copied left (adopted result world))).run (adopted left (adopted result world)) =
    (.ok (), stored)
  ran : (settle store more passed left result).run world = (.ok (copied result world), settled)
  path : Path program touch world (more + passed) settled (copied result world).references
  leads : World.Leads program Permission.nothing stored settled
  types : ∀ id, (settled.registry id).types = (world.registry id).types

/-- The result is adopted first, and then what the code has left. -/
theorem makes_settling {touch : Permission} {remains : HostValue → Prop} {type : HostType}
    {left result : HostValue} (ended : Ended program remains type ⟨left, .ok result⟩ world) :
    World.Makes program touch world [] (adopted left (adopted result world))
      ((copied result world).references ++ (copied left (adopted result world)).references) := by
  have first : World.Makes program touch world [] (adopted result world)
      (copied result world).references :=
    (World.Makes.retainAll (ended.result result rfl).used).trans (HostValue.makes_completed result _)
  exact first.append ((World.Makes.retainAll (first.leads.usedAll ended.used)).trans
    (HostValue.makes_completed left _))

/-- Host code that has returned is settled with. -/
theorem exists_settled {touch : Permission} {remains : HostValue → Prop} {type : HostType}
    {store : HostValue → Op Unit} {more passed : List Ref} {left result : HostValue}
    {frame : Multiset Ref} (stores : Stores program touch remains store before)
    (spares : SparesTypes store) (leads : World.Leads program touch before world)
    (ended : Ended program remains type ⟨left, .ok result⟩ world)
    (sound : world.Sound program (more + passed + frame)) :
    ∃ stored settled, Settled program touch store more passed left result world stored settled := by
  have makes : World.Makes program touch world [] _ _ := makes_settling ended
  generalize kept : copied left (adopted result world) = value at makes
  generalize last : adopted left (adopted result world) = middle at makes
  obtain ⟨_, stored, storing⟩ := stores.sure value middle
  have fits : ∀ type, value.fits program type = left.fits program type := by
    intro type
    rw [← kept, copied, HostValue.fits_completed]
  have making := makes.path_new (more + passed)
  rw [← Multiset.coe_add, ← add_assoc] at making
  have soundMiddle : middle.Sound program
      (value.references + (more + passed + (copied result world).references + frame)) := by
    have sound := (making.frame frame).sound sound
    rwa [add_right_comm, add_comm] at sound
  have stepping : Path program touch middle value.references stored 0 :=
    ((stores.runs left value middle (leads.trans makes.leads) ended.left fits).ok soundMiddle
      storing).1
  have stepped := stepping.frame (more + passed + (copied result world).references)
  rw [zero_add, add_comm] at stepped
  have releasing : ∀ {touch : Permission}, Path program touch stored (more + passed)
      ((stored.releaseAll more).releaseAll passed) 0 := by
    intro touch
    have first : Path program touch stored more (stored.releaseAll more) 0 := path_releaseAll _ _
    have framed := first.frame passed
    rw [zero_add] at framed
    exact framed.trans (path_releaseAll _ _)
  have released : Path program touch stored (more + passed + (copied result world).references) _
      (0 + (copied result world).references) := releasing.frame _
  rw [zero_add] at released
  refine ⟨stored, (stored.releaseAll more).releaseAll passed, ?_, ?_, ?_, ⟨_, _, releasing⟩, ?_⟩
  · rw [kept, last]
    exact storing
  · rw [settle, Operation.run_bind_of_ok (run_adopt result world)]
    have adopting : (adopt left).run (adopted result world) = (.ok value, middle) := by
      rw [← kept, ← last]
      rfl
    have rest := Operation.run_bind_of_ok adopting fun value => do
      store value
      releaseAll more
      releaseAll passed
      return copied result world
    refine rest.trans ?_
    rw [Operation.run_bind_of_ok storing]
    rfl
  · exact (making.trans stepped).trans released
  · intro id
    rw [World.types_releaseAll, World.types_releaseAll]
    have same := spares value middle id
    rw [storing] at same
    rw [same, makes.more.types]

/-- Host code that runs and returns is settled with. -/
theorem exists_performed {callback : Callback}
    (calls : Callback.Counts program Permission.anything callback) {remains : HostValue → Prop}
    {parameters : List HostType} {type : HostType} {run : Behaviour} {subject : HostValue}
    {arguments : List HostValue} {store : HostValue → Op Unit} {frame : Multiset Ref}
    (code : run.Honest program remains parameters type) (given : remains subject)
    (used : ∀ ref ∈ subject.references, ref.place < world.heap.size)
    (fit : HostValue.fitsAll program parameters arguments = true)
    (stores : Stores program Permission.anything remains store world) (spares : SparesTypes store)
    (sound : world.Sound program (HostValue.referencesAll arguments + frame))
    {left result : HostValue} {more : List Ref} {middle : World}
    (routine : (runRoutine callback [] (run world.heap subject arguments)).run world =
      (.ok (⟨left, .ok result⟩, more), middle)) :
    ∃ stored settled,
      (perform callback run subject arguments store).run world =
        (.ok (copied result middle), settled) ∧
      Settled program Permission.anything store more (HostValue.referencesAll arguments) left result
        middle stored settled ∧
      Path program Permission.anything world (HostValue.referencesAll arguments) middle
        (more + HostValue.referencesAll arguments) ∧
      Ended program remains type ⟨left, .ok result⟩ middle := by
  have valid : HostValue.ValidAll program world.heap parameters arguments :=
    ⟨fit, fun ref member => sound.used_of_held (by simp [member])⟩
  have honest := code world.heap subject arguments given used valid
  obtain ⟨path, ended⟩ := (runs_runRoutine calls honest world [] rfl).ok
    (by rwa [Multiset.coe_nil, zero_add]) routine
  have running := path.frame (HostValue.referencesAll arguments : Multiset Ref)
  rw [Multiset.coe_nil, zero_add] at running
  have soundMiddle := (running.frame frame).sound sound
  obtain ⟨stored, settled, settles⟩ :=
    exists_settled stores spares ⟨_, _, path⟩ ended soundMiddle
  refine ⟨stored, settled, ?_, settles, running, ended⟩
  rw [run_perform_of_ok routine rfl]
  exact settles.ran

/-- A result of a type whose values come back is encoded, and let go: what is made stands for it. -/
theorem exists_encoded {registry : RegistryId} {registered plain : StructId → Prop}
    {type : HostType} {result : HostValue} {frame : Multiset Ref}
    (ready : world.Encodes program registry registered plain (result.references + frame))
    (fit : result.fits program type = true) (regular : result.Regular)
    (returns : type.Returns registered plain) :
    ∃ ref final, ((Encode.value program registry type result).always
        (·.releaseAll result.references)).run world = (.ok ref, final) ∧
      Path program Permission.nothing world result.references final {ref} ∧
      Denotes program final.heap registry registered type result ref := by
  have used : ∀ ref ∈ result.references, ref.place < world.heap.size :=
    fun ref member => ready.sound.used_of_held (by simp [member])
  have makes : Encode.MakesValue program Permission.nothing registry registered type result world :=
    Encode.makes_value result ready fit regular used returns
  obtain ⟨ref, encoded, ran, made, denotes⟩ := makes
  have releasing : Path program Permission.nothing encoded result.references
      (encoded.releaseAll result.references) 0 := path_releaseAll _ _
  refine ⟨ref, _, run_always_of_run ran _, ?_, ?_⟩
  · have path := (made.path_new result.references).trans (releasing.frame {ref})
    rwa [zero_add] at path
  · have sound := (made.path_new _).sound ready.sound
    rw [add_assoc] at sound
    exact denotes.kept releasing sound (fun _ => False.elim) (by simp)

end Op

end HostBridge
