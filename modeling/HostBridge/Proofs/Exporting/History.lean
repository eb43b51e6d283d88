import HostBridge.Proofs.Exporting.Call
import HostBridge.Proofs.Exporting.Table
import HostBridge.Proofs.Session.Reachable
import HostBridge.Proofs.Sharing.Values

/-!
# What is exported into a module over time

Exports into a module are accepted or rejected, in between its names are defined, assigned and
cleared, and its functions are called.  All the while the slot of an exported function stays where
the function looks for it: as many slots are there as exports were accepted, and the place of each
is the place of its export among these.
-/

namespace HostBridge

open Op

/-! ## Names of a module -/

/-- What happens to the names of a module, exports apart. -/
inductive ModuleEdit where
  | add (name : String) (value : Ref)
  | assign (name : String) (value : Ref)
  | clear

namespace ModuleEdit

/-- The objects that a name is given to. -/
def values : ModuleEdit → List Ref
  | .add _ value | .assign _ value => [value]
  | .clear => []

def run (program : Program) (module : Ref) : ModuleEdit → Op Unit
  | .add name value => addObject module name value
  | .assign name value => program.setAttribute module name value
  | .clear => clearModule module

end ModuleEdit

/--
The exports into a module that were accepted up to a world, with the functions that they have
returned, the first one first.  What else happens in between may be anything that adds no slots
to the module.
-/
inductive Exporting (program : Program) (module : Ref) :
    World → Multiset Ref → List (Export × Ref) → Prop
  | start {world : World} {held : Multiset Ref} (reached : world.Reached program held)
      {contents : ModuleBody} (there : world.heap.module? module = some contents)
      (empty : contents.slots = []) : Exporting program module world held []
  | accepted {before after : World} {held : Multiset Ref} {exports : List (Export × Ref)}
      (bridge : Bridge) (item : Export) (name doc : String) {function : Ref}
      (history : Exporting program module before held exports)
      (used : ∀ ref ∈ item.captured.references, ref.place < before.heap.size)
      (ran : (program.registerFunction bridge module item name doc).run before =
        (.ok function, after)) :
    Exporting program module after ({function} + held) (exports ++ [(item, function)])
  | rejected {before after : World} {held : Multiset Ref} {exports : List (Export × Ref)}
      (bridge : Bridge) (item : Export) (name doc : String) {fault : Fault}
      (history : Exporting program module before held exports)
      (used : ∀ ref ∈ item.captured.references, ref.place < before.heap.size)
      (ran : (program.registerFunction bridge module item name doc).run before =
        (.error fault, after)) :
    Exporting program module after held exports
  | edited {before after : World} {held : Multiset Ref} {exports : List (Export × Ref)}
      (edit : ModuleEdit) {result : Except Fault Unit}
      (history : Exporting program module before held exports)
      (used : ∀ value ∈ edit.values, value.place < before.heap.size)
      (ran : (edit.run program module).run before = (result, after)) :
    Exporting program module after held exports
  | other {before after : World} {held left : Multiset Ref} {exports : List (Export × Ref)}
      (history : Exporting program module before held exports)
      (path : Path program Permission.anything before held after left)
      (same : ∀ contents later, before.heap.module? module = some contents →
        after.heap.module? module = some later → later.slots.length = contents.slots.length) :
    Exporting program module after left exports

variable {program : Program} {module : Ref}

theorem World.Reached.counted (honest : program.Honest) {world : World} {held : Multiset Ref}
    (reached : world.Reached program held) : world.heap.Counted := by
  obtain ⟨_, _, session, path⟩ := reached
  exact (path.tidy (session.tidy honest)).counted

/-! ## Slots along a path -/

/-- A module that is replaced has its new contents, if it does not go away along with what it has
let go. -/
theorem World.module?_replace (program : Program) {world : World} {contents new later : ModuleBody}
    (reading : world.heap.module? module = some contents)
    (found : (world.replace module (.module new)).heap.module? module = some later) :
    later = new := by
  have old := Heap.module?_eq_some reading
  obtain ⟨cell, present, _⟩ := Heap.exists_cell_of_body old nofun
  generalize retained : world.retainAll (Body.module new).references = middle
  obtain ⟨counted, there, _⟩ : ∃ counted, middle.heap.cell? module = some counted ∧
      counted.body = cell.body := by
    have same := world.body_cell?_retainAll (Body.module new).references module
    rw [retained, present] at same
    exact Option.map_eq_some_iff.mp same
  have changed : (middle.heap.setBody module (.module new)).cell? module =
      some { counted with body := .module new } := by
    rw [Heap.setBody_of_cell _ there, Heap.cell?_put _ there, if_pos rfl]
  have released : world.replace module (.module new) =
      World.releaseAll { middle with heap := middle.heap.setBody module (.module new) }
        (Body.module contents).references := by
    rw [World.replace, old, retained]
  rw [released] at found
  obtain ⟨final, left, body⟩ :=
    Heap.exists_cell_of_body (Heap.module?_eq_some found) nofun
  -- Releasing changes no contents, so the module is what it was made.
  have path : Path program Permission.nothing
      { middle with heap := middle.heap.setBody module (.module new) }
      ((Body.module contents).references : List Ref) _ 0 := path_releaseAll _ _
  have same := path.same_body changed id left
  rw [body] at same
  exact Body.module.inj same

namespace ModuleEdit

variable {world after : World} {edit : ModuleEdit} {result : Except Fault Unit}

theorem runs (honest : program.Honest) (inside : module.place < world.heap.size)
    (used : ∀ value ∈ edit.values, value.place < world.heap.size) :
    Runs program Permission.anything (edit.run program module) world 0 (fun _ => 0)
      fun _ _ => True := by
  cases edit with
  | add name value => exact runs_addObject (fun _ => trivial) (used value (List.mem_singleton_self _))
  | assign name value =>
    exact program.runs_setAttribute honest honest.confined inside
      (used value (List.mem_singleton_self _))
  | clear => exact runs_clearModule (fun _ => trivial) module

/-- Only the names of the module are changed. -/
theorem world_of_run {contents : ModuleBody} (reading : world.heap.module? module = some contents)
    (ran : (edit.run program module).run world = (result, after)) :
    after = world ∨ ∃ globals,
      after = world.replace module (.module { contents with globals }) := by
  cases edit with
  | add name value =>
    have adding : (addObject module name value).run world = (result, after) := ran
    rw [run_addObject, reading] at adding
    dsimp only at adding
    split at adding
    · cases adding
      exact .inl rfl
    · cases adding
      exact .inr ⟨_, rfl⟩
  | assign name value =>
    have assigning : (program.setAttribute module name value).run world = (result, after) := ran
    rw [Program.setAttribute, Operation.run_bind_of_ok (run_heap world),
      Heap.module?_eq_some reading] at assigning
    cases assigning
    exact .inr ⟨_, rfl⟩
  | clear =>
    have clearing : (clearModule module).run world = (result, after) := ran
    rw [clearModule, run_change, reading] at clearing
    cases clearing
    exact .inr ⟨_, rfl⟩

/-- The slots of the module stay as they are. -/
theorem slots_of_run {contents later : ModuleBody}
    (reading : world.heap.module? module = some contents)
    (ran : (edit.run program module).run world = (result, after))
    (found : after.heap.module? module = some later) : later.slots = contents.slots := by
  rcases world_of_run reading ran with rfl | ⟨globals, rfl⟩
  · rw [reading] at found
    cases found
    rfl
  · rw [World.module?_replace program reading found]
    rfl

end ModuleEdit

/-! ## Alignment -/

/-- Only a module goes on as a module. -/
theorem Body.Persists.of_module {body : Body} {later : ModuleBody}
    (persists : body.Persists (.module later)) :
    ∃ contents, body = .module contents ∧ contents.Continues later := by
  unfold Body.Persists at persists
  split at persists
  · obtain ⟨_, ⟨⟩⟩ := persists
  · obtain ⟨_, ⟨⟩⟩ := persists
  · obtain ⟨_, ⟨⟩, continues⟩ := persists
    exact ⟨_, rfl, continues⟩
  · obtain ⟨_, ⟨⟩, _⟩ := persists
  · obtain ⟨_, ⟨⟩, _⟩ := persists
  · obtain ⟨_, ⟨⟩⟩ := persists
  · cases persists
    exact ⟨later, rfl, .refl later⟩

/-- A slot of a module goes on at its place. -/
theorem ModuleBody.Continues.slot {contents later : ModuleBody}
    (continues : contents.Continues later)
    {place : Nat} {slot : Slot} (found : contents.slots[place]? = some slot) :
    ∃ slot', later.slots[place]? = some slot' ∧ slot.Continues slot' := by
  unfold ModuleBody.slots at found
  split at found
  · rename_i registry slots state
    obtain ⟨_, state', more, rfl, keeps⟩ := continues.2 _ state
    obtain ⟨slot', found', continues'⟩ := keeps place slot found
    exact ⟨slot', by rw [ModuleBody.slots, state', found'], continues'⟩
  · cases found

/-- A slot goes on with its number and its function. -/
theorem Slot.Continues.of_function {slot later : Slot} (continues : slot.Continues later)
    {code : Nat}
    {captured : HostValue} (role : slot.role = .function code captured) :
    later.id = slot.id ∧ ∃ captured, later.role = .function code captured := by
  rcases continues with rfl | ⟨code', _, captured', role', rfl⟩
  · exact ⟨rfl, captured, role⟩
  · rw [role, SlotRole.function.injEq] at role'
    obtain ⟨rfl, _⟩ := role'
    exact ⟨rfl, captured', rfl⟩

/-- Slots and functions are as the accepted exports have it: the slot and the function of an export
have its place as their number, the slot leads to the host function that was exported, and there
are no other slots. -/
structure World.Aligned (world : World) (module : Ref) (exports : List (Export × Ref)) : Prop where
  room : exports.length ≤ slotCapacity
  inside : module.place < world.heap.size
  stays : ∀ cell, world.heap.cell? module = some cell → ∃ contents, cell.body = .module contents
  full : ∀ contents, world.heap.module? module = some contents →
    contents.slots.length = exports.length
  slots : ∀ contents, world.heap.module? module = some contents → ∀ (place : Nat) item function,
    exports[place]? = some (item, function) → ∃ slot, contents.slots[place]? = some slot ∧
      slot.id = place ∧ ∃ captured, slot.role = .function item.code captured
  functions : ∀ (place : Nat) item function, exports[place]? = some (item, function) →
    function.place < world.heap.size ∧ ∀ cell, world.heap.cell? function = some cell →
      ∃ definition, cell.body = .function definition (.module module) ∧
        definition.entry = .slot place

/-- An item of a list that was extended is an old one or the new one. -/
theorem getElem?_concat_cases {α : Type} {items : List α} {last item : α} {place : Nat}
    (found : (items ++ [last])[place]? = some item) :
    items[place]? = some item ∨ place = items.length ∧ item = last := by
  rw [List.getElem?_append] at found
  split at found
  · exact .inl found
  · rename_i outside
    rw [List.getElem?_singleton] at found
    split at found
    · rename_i zero
      cases found
      exact .inr ⟨by omega, rfl⟩
    · cases found

namespace World.Aligned

variable {touch : Permission} {before after : World} {held left : Multiset Ref}
  {exports : List (Export × Ref)}

/-- What the table of a module has become along a path. -/
theorem continues (path : Path program touch before held after left)
    (inside : module.place < before.heap.size) {later : ModuleBody}
    (found : after.heap.module? module = some later) :
    ∃ contents, before.heap.module? module = some contents ∧ contents.Continues later := by
  obtain ⟨final, there, body⟩ := Heap.exists_cell_of_body (Heap.module?_eq_some found) nofun
  obtain ⟨cell, present⟩ := path.present inside there
  have persists := path.persists present there
  rw [body] at persists
  obtain ⟨contents, same, continues⟩ := Body.Persists.of_module persists
  exact ⟨contents, by rw [Heap.module?, Heap.body_eq present, same], continues⟩

/-- Slots and functions stay aligned as long as no slots are added. -/
theorem along (aligned : before.Aligned module exports)
    (path : Path program touch before held after left)
    (same : ∀ contents later, before.heap.module? module = some contents →
      after.heap.module? module = some later → later.slots.length = contents.slots.length) :
    after.Aligned module exports where
  room := aligned.room
  inside := Nat.lt_of_lt_of_le aligned.inside path.grows.places
  stays later there := by
    obtain ⟨cell, present⟩ := path.present aligned.inside there
    obtain ⟨contents, body⟩ := aligned.stays cell present
    have persists := path.persists present there
    rw [body] at persists
    obtain ⟨contents', same, _⟩ := persists
    exact ⟨contents', same⟩
  full later found := by
    obtain ⟨contents, reading, _⟩ := continues path aligned.inside found
    rw [same contents later reading found, aligned.full contents reading]
  slots later found place item function listed := by
    obtain ⟨contents, reading, continues⟩ := continues path aligned.inside found
    obtain ⟨slot, here, rfl, captured, role⟩ :=
      aligned.slots contents reading place item function listed
    obtain ⟨slot', here', continues'⟩ := continues.slot here
    obtain ⟨number, kept⟩ := continues'.of_function role
    exact ⟨slot', here', number, kept⟩
  functions place item function listed := by
    obtain ⟨used, reading⟩ := aligned.functions place item function listed
    refine ⟨Nat.lt_of_lt_of_le used path.grows.places, fun later there => ?_⟩
    obtain ⟨cell, present⟩ := path.present used there
    obtain ⟨definition, body, entry⟩ := reading cell present
    have persists := path.persists present there
    rw [body] at persists
    exact ⟨definition, persists.function, entry⟩

/-- An export that is accepted is aligned with the slot that it enters. -/
theorem accepted (aligned : before.Aligned module exports)
    (counted : before.heap.Counted) {bridge : Bridge} {item : Export} {name doc : String}
    {function : Ref} (ran : (program.registerFunction bridge module item name doc).run before =
      (.ok function, after)) : after.Aligned module (exports ++ [(item, function)]) := by
  obtain ⟨contents, edit, slot, reading, edits, entered, room, number, role, new, body⟩ :=
    Program.edits_registerFunction counted ran
  have full := aligned.full contents reading
  have now : ∀ later, after.heap.module? module = some later →
      later.slots = contents.slots ++ [slot] := by
    intro later found
    rw [edits.module? reading] at found
    cases found
    exact entered
  refine ⟨?_, Nat.lt_of_lt_of_le aligned.inside edits.size, fun cell there => ?_,
    fun later found => ?_, fun later found place item' function' listed => ?_,
    fun place item' function' listed => ?_⟩
  · rw [List.length_append, ← full]
    exact room
  · have edited := edits.module? reading
    obtain ⟨cell', present, same⟩ := Heap.exists_cell_of_body (Heap.module?_eq_some edited) nofun
    rw [present] at there
    cases there
    exact ⟨_, same⟩
  · rw [now later found, List.length_append, List.length_append, full]
    rfl
  · rw [now later found]
    rcases getElem?_concat_cases listed with old | ⟨rfl, same⟩
    · obtain ⟨slot', here, number', role'⟩ := aligned.slots contents reading place item' function' old
      have inside := (List.getElem?_eq_some_iff.mp here).1
      exact ⟨slot', by rw [List.getElem?_append_left inside, here], number', role'⟩
    · cases same
      exact ⟨slot, by rw [← full, List.getElem?_concat_length], by rw [number, full], _, role⟩
  · rcases getElem?_concat_cases listed with old | ⟨rfl, same⟩
    · obtain ⟨used, reading'⟩ := aligned.functions place item' function' old
      refine ⟨Nat.lt_of_lt_of_le used edits.size, fun later there => ?_⟩
      have kept := edits.kept function' used
      rw [there] at kept
      obtain ⟨cell, present, same⟩ := Option.map_eq_some_iff.mp kept.symm
      obtain ⟨definition, body', entry⟩ := reading' cell present
      refine ⟨definition, ?_, entry⟩
      rw [← same, body']
      exact ite_self _
    · cases same
      obtain ⟨cell, present, same⟩ := Heap.exists_cell_of_body body nofun
      refine ⟨Heap.place_lt_size present, fun cell' there => ?_⟩
      rw [present] at there
      cases there
      exact ⟨_, same, by rw [Program.definition, number, full]⟩

end World.Aligned

namespace Exporting

variable {world : World} {held : Multiset Ref} {exports : List (Export × Ref)}

/-- Slots and functions are aligned at any time. -/
theorem aligned (honest : program.Honest) (history : Exporting program module world held exports) :
    world.Reached program held ∧ world.Aligned module exports := by
  induction history with
  | start reached there empty =>
    obtain ⟨cell, present, body⟩ := Heap.exists_cell_of_body (Heap.module?_eq_some there) nofun
    refine ⟨reached, ⟨Nat.zero_le _, Heap.place_lt_size present, fun cell' found => ?_,
      fun contents reading => ?_, nofun, nofun⟩⟩
    · rw [present] at found
      cases found
      exact ⟨_, body⟩
    · rw [there] at reading
      cases reading
      rw [empty]
      rfl
  | accepted bridge item name doc _ used ran ih =>
    obtain ⟨reached, aligned⟩ := ih
    have path := reached.path_of_ok honest (Program.runs_registerFunction (fun _ => trivial) used) ran
    exact ⟨reached.trans path, aligned.accepted (reached.counted honest) ran⟩
  | rejected bridge item name doc _ used ran ih =>
    obtain ⟨reached, aligned⟩ := ih
    have path := reached.path_of_error honest (Program.runs_registerFunction (fun _ => trivial) used) ran
    refine ⟨reached.trans path, aligned.along path fun contents later reading found => ?_⟩
    rcases (Program.registerFunction_of_error (reached.counted honest) ran).1 with edits | edits
    · rw [edits.module? reading] at found
      cases found
      rfl
    · rw [edits.module? reading] at found
      cases found
      rw [ModuleBody.slots_tabled]
  | @edited before after held exports edit result _ used ran ih =>
    obtain ⟨reached, aligned⟩ := ih
    have runs := edit.runs honest aligned.inside used
    have path : Path program Permission.anything before held after held := by
      cases result with
      | ok value =>
        have path := reached.path_of_ok honest runs ran
        rwa [zero_add] at path
      | error fault => exact reached.path_of_error honest runs ran
    refine ⟨reached.trans path, aligned.along path fun contents later reading found => ?_⟩
    rw [ModuleEdit.slots_of_run reading ran found]
  | other _ path same ih =>
    obtain ⟨reached, aligned⟩ := ih
    exact ⟨reached.trans path, aligned.along path same⟩

end Exporting

/-! ## What exported functions run -/

/-- Working the queue off leaves a module as it is, unless the module goes away with it. -/
theorem World.Aligned.drained (honest : program.Honest) {world drained : World}
    {held : Multiset Ref} {exports : List (Export × Ref)} (reached : world.Reached program held)
    (aligned : world.Aligned module exports) (ended : drainIfDue.run world = (.ok (), drained)) :
    drained.Aligned module exports := by
  have framed : world.Sound program (0 + held) := by
    rw [zero_add]
    exact reached.sound honest
  have path := path_of_drained framed ended
  refine aligned.along path fun contents later reading found => ?_
  obtain ⟨cell, present, body⟩ := Heap.exists_cell_of_body (Heap.module?_eq_some reading) nofun
  obtain ⟨cell', present', body'⟩ := Heap.exists_cell_of_body (Heap.module?_eq_some found) nofun
  have same := path.same_body present id present'
  rw [body, body', Body.module.injEq] at same
  rw [same]

namespace Figures

/-- The function of the program, which captures nothing. -/
def pick : Export := ⟨0, .unit⟩

/-- A module has been made, and nothing is in it yet. -/
def hosted : World := Request.played Figures.program (opening.drop 2)

def published : World :=
  ((Figures.program.registerFunction bridge ⟨4⟩ pick "pick" "").run hosted).2

/-- The name of the function is given to something else. -/
def renamed : World := (((ModuleEdit.assign "pick" ⟨0⟩).run Figures.program ⟨4⟩).run published).2

def cleared : World := ((ModuleEdit.clear.run Figures.program ⟨4⟩).run renamed).2

end Figures

end HostBridge
