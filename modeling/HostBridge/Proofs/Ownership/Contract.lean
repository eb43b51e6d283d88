import HostBridge.Object.Container
import HostBridge.Proofs.Operation
import HostBridge.Proofs.Ownership.Release

/-!
# Contracts of operations

`Op.Runs` says what an operation does with references: from a sound world it
goes along a path, takes the references that it is handed, and hands over others
with its result.  An operation that fails hands over nothing.  Whatever else
code holds takes no part.

Operations are put together by the rules below, one for each way in which they
are written.
-/

namespace HostBridge

/-- A world that steps lead to from another. -/
def World.Leads (program : Program) (touch : Permission) (before after : World) : Prop :=
  ∃ held left, Path program touch before held after left

namespace World.Leads

variable {program : Program} {touch : Permission} {first second third : World}

theorem refl (world : World) : World.Leads program touch world world :=
  ⟨0, 0, .refl _ _⟩

theorem trans (front : World.Leads program touch first second)
    (back : World.Leads program touch second third) : World.Leads program touch first third := by
  obtain ⟨given, held, front⟩ := front
  obtain ⟨taken, left, back⟩ := back
  refine ⟨given + taken, left + held, (front.frame taken).trans ?_⟩
  rw [add_comm held taken]
  exact back.frame held

theorem grows (leads : World.Leads program touch first second) : first.Grows second := by
  obtain ⟨_, _, path⟩ := leads
  exact path.grows

/-- A place that has been used stays one. -/
theorem used (leads : World.Leads program touch first second) {ref : Ref}
    (used : ref.place < first.heap.size) : ref.place < second.heap.size :=
  Nat.lt_of_lt_of_le used leads.grows.places

/-- A wrapper goes on being one of its type, and showing its place. -/
theorem same_wrapper (leads : World.Leads program touch first second) {ref : Ref}
    {content content' : Held} {bridged bridged' : BridgedType}
    (wrapper : first.heap.wrapper? ref = some (content, bridged))
    (wrapper' : second.heap.wrapper? ref = some (content', bridged')) :
    bridged' = bridged ∧ Heap.location ref content' = Heap.location ref content := by
  obtain ⟨_, _, path⟩ := leads
  exact path.same_wrapper wrapper wrapper'

theorem usedAll (leads : World.Leads program touch first second) {refs : List Ref}
    (used : ∀ ref ∈ refs, ref.place < first.heap.size) :
    ∀ ref ∈ refs, ref.place < second.heap.size :=
  fun ref member => leads.used (used ref member)

end World.Leads

namespace Op

variable {α β : Type} (program : Program) (touch : Permission)

/--
An operation runs along a path.  It takes the references `taken`, and hands over
`given` with a result of which `post` holds.
-/
def Runs (action : Op α) (world : World) (taken : Multiset Ref) (given : α → Multiset Ref)
    (post : α → World → Prop) : Prop :=
  ∀ frame, world.Sound program (taken + frame) →
    match action.run world with
    | (.ok value, after) => Path program touch world taken after (given value) ∧ post value after
    | (.error _, after) => Path program touch world taken after 0

variable {program touch}

namespace Runs

variable {world : World} {taken rest : Multiset Ref} {given : α → Multiset Ref}
  {post : α → World → Prop} {action : Op α}

/-- How a run ends with a result. -/
theorem ok {value : α} {after : World} {frame : Multiset Ref}
    (runs : Runs program touch action world taken given post)
    (sound : world.Sound program (taken + frame)) (ended : action.run world = (.ok value, after)) :
    Path program touch world taken after (given value) ∧ post value after := by
  have run := runs frame sound
  rw [ended] at run
  exact run

/-- How a run ends with a fault. -/
theorem error {fault : Fault} {after : World} {frame : Multiset Ref}
    (runs : Runs program touch action world taken given post)
    (sound : world.Sound program (taken + frame))
    (ended : action.run world = (.error fault, after)) :
    Path program touch world taken after 0 := by
  have run := runs frame sound
  rw [ended] at run
  exact run

/-- An operation that ends in a known way. -/
theorem of_ok {value : α} {after : World} (ended : action.run world = (.ok value, after))
    (path : Path program touch world taken after (given value)) (holds : post value after) :
    Runs program touch action world taken given post := by
  intro frame _
  rw [ended]
  exact ⟨path, holds⟩

theorem of_error {fault : Fault} (ended : action.run world = (.error fault, world)) :
    Runs program touch action world 0 given post := by
  intro frame _
  rw [ended]
  exact .refl _ _

theorem pure {value : α} (spent : taken = given value) (holds : post value world) :
    Runs program touch (pure value) world taken given post :=
  .of_ok rfl (spent ▸ .refl _ _) holds

theorem raise (exception : Exception) : Runs program touch
    (Op.raise exception) world 0 given post :=
  .of_error rfl

theorem panic (misuse : Misuse) : Runs program touch (Op.panic misuse) world 0 given post :=
  .of_error rfl

theorem throw (fault : Fault) :
    Runs program touch (MonadExcept.throw fault) world 0 given post :=
  .of_error rfl

/-- A run may be looked at under more assumptions. -/
theorem assuming
    (runs : ∀ frame, world.Sound program (taken + frame) →
      Runs program touch action world taken given post) :
    Runs program touch action world taken given post :=
  fun frame sound => runs frame sound frame sound

/-- A weaker statement about the result. -/
theorem weaken {weaker : α → World → Prop} (runs : Runs program touch action world taken given post)
    (follows : ∀ value after, World.Leads program touch world after → post value after →
      weaker value after) :
    Runs program touch action world taken given weaker := by
  intro frame sound
  have run := runs frame sound
  rcases ended : action.run world with ⟨result, after⟩
  rw [ended] at run
  cases result with
  | ok value => exact ⟨run.1, follows value after ⟨_, _, run.1⟩ run.2⟩
  | error fault => exact run

/-- What other code holds takes no part in an operation that cannot fail. -/
theorem frame (runs : Runs program touch action world taken given post) (rest : Multiset Ref)
    (sure : ∃ value after, action.run world = (.ok value, after)) :
    Runs program touch action world (taken + rest) (fun value => given value + rest) post := by
  intro frame sound
  obtain ⟨value, after, ended⟩ := sure
  obtain ⟨path, holds⟩ := runs.ok (by rwa [← add_assoc]) ended
  rw [ended]
  exact ⟨path.frame rest, holds⟩

/-- One operation after another. -/
theorem bind {next : α → Op β} {given' : β → Multiset Ref} {post' : β → World → Prop}
    (runs : Runs program touch action world taken given post)
    (later : ∀ value after, World.Leads program touch world after → post value after →
      Runs program touch (next value) after (given value) given' post') :
    Runs program touch (action >>= next) world taken given' post' := by
  intro frame sound
  have run := runs frame sound
  rcases ended : action.run world with ⟨result, after⟩
  rw [ended] at run
  cases result with
  | error fault =>
    rw [Operation.run_bind_of_error ended]
    exact run
  | ok value =>
    obtain ⟨path, holds⟩ := run
    have sound' : after.Sound program (given value + frame) := (path.frame frame).sound sound
    rw [Operation.run_bind_of_ok ended]
    have run' := later value after ⟨_, _, path⟩ holds frame sound'
    rcases ended' : (next value).run after with ⟨result', final⟩
    rw [ended'] at run'
    cases result' with
    | ok value' => exact ⟨path.trans run'.1, run'.2⟩
    | error fault => exact path.trans run'

/-- A change of the world that cannot fail, then an operation. -/
theorem path_bind {value : α} {after : World} {next : α → Op β} {middle : Multiset Ref}
    {given' : β → Multiset Ref} {post' : β → World → Prop}
    (ended : action.run world = (.ok value, after))
    (path : Path program touch world taken after middle)
    (later : World.Leads program touch world after →
      Runs program touch (next value) after middle given' post') :
    Runs program touch (action >>= next) world taken given' post' := by
  have first : Runs program touch action world taken (fun _ => middle)
      (fun result final => result = value ∧ final = after) := .of_ok ended path ⟨rfl, rfl⟩
  refine first.bind ?_
  rintro _ _ leads ⟨rfl, rfl⟩
  exact later leads

/-- A look at the world, then an operation. -/
theorem look_bind {value : α} {next : α → Op β} {given' : β → Multiset Ref}
    {post' : β → World → Prop} (ended : action.run world = (.ok value, world))
    (later : Runs program touch (next value) world taken given' post') :
    Runs program touch (action >>= next) world taken given' post' :=
  path_bind ended (.refl _ _) fun _ => later

theorem heap_bind {next : Heap → Op β} {given' : β → Multiset Ref} {post' : β → World → Prop}
    (later : Runs program touch (next world.heap) world taken given' post') :
    Runs program touch (Op.heap >>= next) world taken given' post' :=
  look_bind (run_heap world) later

theorem world_bind {next : World → Op β} {given' : β → Multiset Ref} {post' : β → World → Prop}
    (later : Runs program touch (next world) world taken given' post') :
    Runs program touch (Op.world >>= next) world taken given' post' :=
  look_bind (run_world world) later

theorem ofExcept_bind {result : Except Fault α} {next : α → Op β} {given' : β → Multiset Ref}
    {post' : β → World → Prop}
    (later : ∀ value, result = .ok value → Runs program touch (next value) world 0 given' post') :
    Runs program touch (Op.ofExcept result >>= next) world 0 given' post' := by
  cases result with
  | error fault => exact .of_error rfl
  | ok value => exact look_bind rfl (later value rfl)

/-- Operations one after the other, none of which takes or hands over references. -/
theorem forM {item : Type} {action : item → Op PUnit} {items : List item}
    (each : ∀ one ∈ items, ∀ middle, World.Leads program touch world middle →
      Runs program touch (action one) middle 0 (fun _ => 0) fun _ _ => True) :
    Runs program touch (items.forM action) world 0 (fun _ => 0) fun _ _ => True := by
  induction items generalizing world with
  | nil => exact .pure rfl trivial
  | cons one rest ih =>
    refine (each one (by simp) world (.refl _)).bind fun _ after leads _ => ?_
    exact ih fun other member middle leads' => each other (by simp [member]) middle
      (leads.trans leads')

/-- A step that gives up what an operation would otherwise leave to its caller. -/
theorem undoing {step : World → World}
    (runs : Runs program touch action world taken given post)
    (undo : ∀ after, Path program touch after rest (step after) 0) :
    Runs program touch (action.undoing step) world (taken + rest)
      (fun value => given value + rest) post := by
  intro frame sound
  have run := runs (rest + frame) (by rwa [← add_assoc])
  rcases ended : action.run world with ⟨result, after⟩
  rw [ended] at run
  have undone : (action.undoing step).run world =
      match (result, after) with
      | (.ok value, after) => (.ok value, after)
      | (.error fault, after) => (.error fault, step after) := by
    rw [← ended]
    rfl
  rw [undone]
  cases result with
  | ok value => exact ⟨run.1.frame rest, run.2⟩
  | error fault =>
    refine (run.frame rest).trans ?_
    rw [zero_add]
    exact undo after

/-- A step that is taken after an operation in any case. -/
theorem always {step : World → World} {post' : α → World → Prop}
    (runs : Runs program touch action world taken given post)
    (due : ∀ after, Path program touch after rest (step after) 0)
    (follows : ∀ value after, World.Leads program touch world after →
      World.Leads program touch after (step after) → post value after → post' value (step after)) :
    Runs program touch (action.always step) world (taken + rest) given post' := by
  intro frame sound
  have run := runs (rest + frame) (by rwa [← add_assoc])
  rcases ended : action.run world with ⟨result, after⟩
  rw [ended] at run
  have done : (action.always step).run world = (result, step after) := by
    rw [run_always, ended]
  rw [done]
  cases result with
  | ok value =>
    have last : Path program touch after (given value + rest) (step after) (given value) := by
      have framed := (due after).frame (given value)
      rwa [zero_add, add_comm] at framed
    exact ⟨(run.1.frame rest).trans last, follows value after ⟨_, _, run.1⟩ ⟨_, _, due after⟩ run.2⟩
  | error fault =>
    refine (run.frame rest).trans ?_
    rw [zero_add]
    exact due after

end Runs

/-! ## Contracts of the first operations -/

section

variable {world : World} {taken : Multiset Ref}

theorem runs_change {step : World → World} {given : Multiset Ref}
    (path : Path program touch world taken (step world) given) :
    Runs program touch (change step) world taken (fun _ => given) fun _ _ => True :=
  .of_ok rfl path trivial

theorem runs_retain {ref : Ref} (used : ref.place < world.heap.size) :
    Runs program touch (retain ref) world 0 (fun ref => {ref}) fun result _ => result = ref := by
  refine .of_ok rfl ?_ rfl
  have path : Path program touch world 0 (world.retain ref) (0 + {ref}) := .retain used
  rwa [zero_add] at path

theorem runs_retainOption {ref : Option Ref} (used : ∀ inner ∈ ref, inner.place < world.heap.size) :
    Runs program touch (retainOption ref) world 0 (fun result => result.toList) fun result _ =>
      result = ref := by
  cases ref with
  | none => exact .pure rfl rfl
  | some ref =>
    refine (runs_retain (used ref rfl)).bind ?_
    rintro _ after _ rfl
    exact .pure rfl rfl

theorem path_releaseAll (world : World) (refs : List Ref) :
    Path program touch world refs (world.releaseAll refs) 0 := by
  have path : Path program touch world (0 + refs) (world.releaseAll refs) 0 :=
    .releaseAll world refs 0
  rwa [zero_add] at path

theorem path_release (world : World) (ref : Ref) :
    Path program touch world {ref} (world.release ref) 0 :=
  path_releaseAll world [ref]

theorem runs_release (ref : Ref) :
    Runs program touch (release ref) world {ref} (fun _ => 0) fun _ _ => True :=
  runs_change (path_release world ref)

theorem runs_releaseAll (refs : List Ref) :
    Runs program touch (releaseAll refs) world refs (fun _ => 0) fun _ _ => True :=
  runs_change (path_releaseAll world refs)

/-- A new object is what it was made as. -/
theorem runs_create_body {body : Body} (plain : body.Plain program)
    (used : ∀ ref ∈ body.references, ref.place < world.heap.size) :
    Runs program touch (create body) world 0 (fun ref => {ref}) fun ref after =>
      after.heap.body ref = body := by
  refine .of_ok rfl ?_ (Heap.body_eq (Heap.cell?_push_next _ _))
  have path : Path program touch world 0 (world.create body).2 (0 + {(world.create body).1}) :=
    .create plain used
  rwa [zero_add] at path

theorem runs_create {body : Body} (plain : body.Plain program)
    (used : ∀ ref ∈ body.references, ref.place < world.heap.size) :
    Runs program touch (create body) world 0 (fun ref => {ref}) fun _ _ => True :=
  (runs_create_body plain used).weaken fun _ _ _ _ => trivial

theorem runs_place {body : Body} (plain : body.Plain program) :
    Runs program touch (place body) world body.references (fun ref => {ref}) fun _ _ => True := by
  refine .of_ok rfl ?_ trivial
  have path : Path program touch world (0 + body.references) (world.place body).2
      (0 + {(world.place body).1}) := .place plain
  rwa [zero_add, zero_add] at path

theorem settles_note (world : World) (level : Level) (text : String) :
    world.Settles (world.note level text) :=
  .of_registries rfl rfl (le_refl _)

theorem path_note (level : Level) (text : String) :
    Path program touch world taken (world.note level text) taken :=
  .single (.settle (settles_note world level text) rfl)

theorem Runs.note_bind {level : Level} {text : String} {next : Unit → Op β}
    {given : β → Multiset Ref} {post : β → World → Prop}
    (later : Runs program touch (next ()) (world.note level text) taken given post) :
    Runs program touch (note level text >>= next) world taken given post :=
  .path_bind (run_note world level text) (path_note level text) fun _ => later

/-- A change of the contents of an object that is there. -/
theorem runs_replace {ref : Ref} {cell : Cell} {body : Body}
    (there : world.heap.cell? ref = some cell) (touched : touch cell.body)
    (becomes : cell.body.Becomes program world.heap body)
    (used : ∀ inner ∈ body.references, inner.place < world.heap.size) :
    Runs program touch (change (·.replace ref body)) world 0 (fun _ => 0) fun _ _ => True :=
  runs_change (.replace there touched becomes used)

end

end Op

namespace World.Sound

variable {program : Program} {world : World} {held : Multiset Ref}

theorem used_of_held (sound : world.Sound program held) {ref : Ref} (member : ref ∈ held) :
    ref.place < world.heap.size :=
  sound.within ref (by simp [World.owed, member])

/-- What an object owns names places that have been used. -/
theorem used_of_body (sound : world.Sound program held) (ref : Ref) {inner : Ref}
    (member : inner ∈ (world.heap.body ref).references) : inner.place < world.heap.size := by
  cases present : world.heap.cell? ref with
  | none =>
    have nothing : world.heap.body ref = .none := by simp [Heap.body, present]
    rw [nothing] at member
    cases member
  | some cell =>
    rw [Heap.body_eq present] at member
    refine sound.within inner ?_
    simp [World.owed, Heap.mem_owned present member]

/-- The objects that exist from the start have places. -/
theorem used_of_first (sound : world.Sound program held) {ref : Ref}
    (first : ref.place < Heap.initial.size) : ref.place < world.heap.size :=
  Nat.lt_of_lt_of_le first sound.grounded.large

/-- A registered type names a place that has been used. -/
theorem used_of_handle (sound : world.Sound program held) {id : RegistryId} {host : StructId}
    {handle : Ref} (registered : (host, handle) ∈ (world.registry id).types) :
    handle.place < world.heap.size :=
  sound.within handle (by simp [World.owed, mem_claims registered])

end World.Sound

end HostBridge
