import HostBridge.Object.Call
import HostBridge.Proofs.Ownership.Dispatch
import HostBridge.Proofs.Ownership.Queue

/-!
# Contracts of attributes and calls

Attributes are read and written, and objects called, with borrowed references.
A call hands over one reference, that to its result.  Calls within calls are
bounded, so the contract of calls is found by induction on the bound.
-/

namespace HostBridge.Program

open Op

variable {program : Program} {touch : Permission} {world : World}

/-! ## Attributes -/

theorem runs_runGetter (confined : program.Confined touch) {accessor : AccessorDef} {self : Ref}
    (used : self.place < world.heap.size) :
    Runs program touch (program.runGetter accessor self) world 0 (fun ref => {ref})
      fun _ _ => True := by
  unfold runGetter
  split
  · exact runs_readField self _
  · refine confined.nativeGetter _ self _ world fun ref member => ?_
    rwa [List.mem_singleton.mp member]

theorem runs_runSetter (honest : program.Honest) (confined : program.Confined touch)
    {setter : Handler} {accessor : AccessorDef}
    {self value : Ref} (used : self.place < world.heap.size)
    (valueUsed : value.place < world.heap.size) :
    Runs program touch (program.runSetter setter accessor self value) world 0 (fun _ => 0)
      fun _ _ => True := by
  unfold runSetter
  split
  · exact runs_writeField honest confined.contents _ valueUsed
  · refine confined.nativeSetter _ self value _ world fun ref member => ?_
    rcases List.mem_cons.mp member with rfl | rest
    · exact used
    · rwa [List.mem_singleton.mp rest]

theorem runs_makeText (text : String) :
    Runs program touch (makeText text) world 0 (fun ref => {ref}) fun _ _ => True :=
  runs_placeScalar trivial rfl

theorem runs_retainUsed {ref : Ref} (used : ref.place < world.heap.size) :
    Runs program touch (Op.retain ref) world 0 (fun ref => {ref}) fun _ _ => True :=
  (runs_retain used).weaken fun _ _ _ _ => trivial

/-- Reading an attribute runs nothing but a getter of the type. -/
theorem runs_getAttribute_of {self : Ref} {name : String} (used : self.place < world.heap.size)
    (getters : ∀ type state shape accessor, world.heap.body self = .instance type state →
      world.heap.type? type = some shape → shape.accessor? name = some accessor →
      Runs program touch (program.runGetter accessor self) world 0 (fun ref => {ref})
        fun _ _ => True) :
    Runs program touch (program.getAttribute self name) world 0 (fun ref => {ref})
      fun _ _ => True := by
  refine .assuming fun frame sound => .heap_bind ?_
  dsimp only
  cases reading : world.heap.body self with
  | «instance» type state =>
    dsimp only
    split
    · exact .raise _
    · rename_i shape typed
      split
      · rename_i found
        exact getters type state shape _ reading typed found
      · exact runs_createFunction used
      · split
        · refine runs_retainUsed (sound.used_of_body self ?_)
          rw [reading]
          simp [Body.references]
        · exact .raise _
  | module contents =>
    dsimp only
    split
    · rename_i value found
      refine runs_retainUsed (sound.used_of_body self ?_)
      rw [reading]
      obtain ⟨front, back, split, _⟩ := List.lookup_eq_some_iff.mp found
      simp [Body.references, split]
    · split
      · exact runs_makeText _
      · exact runs_makeText _
      · exact .raise _
  | type shape =>
    dsimp only
    split
    · exact runs_makeText _
    · exact runs_makeText _
    · exact .raise _
  | function definition owner =>
    dsimp only
    split
    · exact runs_makeText _
    · exact runs_makeText _
    · split
      · exact runs_makeText _
      · exact runs_retainFirst (by decide)
    · refine runs_functionOwner fun ref bound => sound.used_of_body self ?_
      rw [reading, bound]
      simp [Body.references]
    · exact .raise _
  | _ => exact .raise _

theorem runs_getAttribute (confined : program.Confined touch) {self : Ref} {name : String}
    (used : self.place < world.heap.size) :
    Runs program touch (program.getAttribute self name) world 0 (fun ref => {ref})
      fun _ _ => True :=
  runs_getAttribute_of used fun _ _ _ _ _ _ _ => runs_runGetter confined used

/-- The globals of a module after one of them has been written. -/
theorem mem_globals {globals : List (String × Ref)} {name : String} {value ref : Ref}
    (member : ref ∈ (if (globals.lookup name).isSome then
        globals.map fun (key, old) => (key, if key = name then value else old)
      else globals ++ [(name, value)]).map (·.2)) :
    ref = value ∨ ref ∈ globals.map (·.2) := by
  obtain ⟨entry, among, rfl⟩ := List.mem_map.mp member
  split at among
  · obtain ⟨⟨key, old⟩, inside, rfl⟩ := List.mem_map.mp among
    dsimp only
    split
    · exact .inl rfl
    · exact .inr (List.mem_map.mpr ⟨(key, old), inside, rfl⟩)
  · rcases List.mem_append.mp among with inside | new
    · exact .inr (List.mem_map.mpr ⟨entry, inside, rfl⟩)
    · exact .inl (by rw [List.mem_singleton.mp new])

theorem runs_setAttribute (honest : program.Honest) (confined : program.Confined touch)
    {self value : Ref} {name : String}
    (used : self.place < world.heap.size) (valueUsed : value.place < world.heap.size) :
    Runs program touch (program.setAttribute self name value) world 0 (fun _ => 0)
      fun _ _ => True := by
  refine .assuming fun frame sound => .heap_bind ?_
  cases reading : world.heap.body self with
  | «instance» type state =>
    dsimp only
    split
    · exact .raise _
    · split
      · exact .raise _
      · exact runs_runSetter honest confined used valueUsed
  | module contents =>
    refine runs_replace_body reading (by simp) (confined.contents _) (.module (.of_state rfl rfl))
      fun inner member => ?_
    rcases List.mem_append.mp member with global | state
    · rcases mem_globals global with rfl | old
      · exact valueUsed
      · refine sound.used_of_body self ?_
        rw [reading]
        exact List.mem_append_left _ old
    · refine sound.used_of_body self ?_
      rw [reading]
      exact List.mem_append_right _ state
  | _ => exact .raise _

theorem runs_hasAttribute (confined : program.Confined touch) {self : Ref} {name : String}
    (used : self.place < world.heap.size) :
    Runs program touch (program.hasAttribute self name) world 0 (fun _ => 0)
      fun _ _ => True := by
  intro frame sound
  have runs : Runs program touch (program.getAttribute self name) world 0 _ _ :=
    runs_getAttribute confined used
  have run := runs frame sound
  rw [hasAttribute, run_ofFunction]
  rcases ended : (program.getAttribute self name).run world with ⟨result, after⟩
  rw [ended] at run
  cases result with
  | ok ref => exact ⟨run.1.trans (path_release after ref), trivial⟩
  | error fault =>
    cases fault with
    | raised exception => exact ⟨run, trivial⟩
    | _ => exact run

/-! ## Calls -/

theorem runs_allocate (honest : program.Honest) (confined : program.Confined touch)
    {shape : TypeBody} {type : Ref}
    (used : type.place < world.heap.size) :
    Runs program touch (program.allocate shape type) world 0 (fun ref => {ref})
      fun _ _ => True := by
  unfold allocate
  split
  · exact runs_createInstance type
  · exact runs_allocateWrapper honest type
  · refine confined.nativeAllocator _ type world fun ref member => ?_
    rwa [List.mem_singleton.mp member]

section

variable {callback : Callback} (honest : program.Honest) (confined : program.Confined touch)
  (calls : Callback.Counts program touch callback) {self : Ref} {positional : List Ref}
  {keywords : Option Ref} (selfUsed : self.place < world.heap.size)
  (used : ∀ ref ∈ positional, ref.place < world.heap.size)
  (keywordsUsed : ∀ ref ∈ keywords, ref.place < world.heap.size)

include selfUsed used keywordsUsed

/-- The references that a native entry point borrows. -/
theorem used_borrowed : ∀ ref ∈ self :: positional ++ keywords.toList,
    ref.place < world.heap.size := by
  intro ref member
  rcases List.mem_append.mp member with front | keyword
  · rcases List.mem_cons.mp front with rfl | argument
    · exact selfUsed
    · exact used ref argument
  · exact keywordsUsed ref (Option.mem_toList.mp keyword)

include honest confined calls

theorem runs_runMaker {shape : TypeBody} :
    Runs program touch (program.runMaker callback shape self positional keywords) world 0
      (fun _ => 0) fun _ _ => True := by
  unfold runMaker
  split
  · exact runs_construct honest confined.contents calls used keywordsUsed
  · exact confined.nativeMaker _ self positional keywords world
      (used_borrowed selfUsed used keywordsUsed)
  · refine .heap_bind ?_
    dsimp only
    split
    · exact .raise _
    · exact .pure rfl trivial

theorem runs_runEntry {entry : Entry} :
    Runs program touch (program.runEntry callback entry self positional keywords) world 0
      (fun ref => {ref}) fun _ _ => True := by
  unfold runEntry
  split
  · exact runs_dispatch honest confined.contents calls used keywordsUsed
  · exact runs_dispatchAdHoc honest confined.contents calls used keywordsUsed
  · exact confined.nativeFunction _ self positional keywords world
      (used_borrowed selfUsed used keywordsUsed)

theorem runs_instantiate {shape : TypeBody} :
    Runs program touch
      (program.instantiate callback self shape positional keywords) world 0 (fun ref => {ref})
      fun _ _ => True := by
  refine (runs_allocate honest confined selfUsed).bind fun fresh after leads _ =>
    .assuming fun _ sound => ?_
  have making : Runs program touch
      (program.runMaker callback shape fresh positional keywords) after 0 (fun _ => 0)
      fun _ _ => True :=
    runs_runMaker honest confined calls (sound.used_of_held (by simp)) (leads.usedAll used)
      fun ref member => leads.used (keywordsUsed ref member)
  have made := making.undoing fun final => path_release final fresh
  rw [zero_add] at made
  exact made.bind fun _ _ _ _ => .pure rfl trivial

/-- What a call does once its keyword arguments have been looked at. -/
theorem runs_callee :
    Runs program touch
      (do
        Op.drainIfDue
        match (← Op.heap).body self with
        | .function definition owner =>
          let self ← Op.functionOwner owner
          (program.runEntry callback definition.entry self positional keywords).always
            (·.release self)
        | .type shape => program.instantiate callback self shape positional keywords
        | _ => Op.raise (.notCallable (world.heap.typeName self))) world 0 (fun ref => {ref})
      fun _ _ => True := by
  refine runs_drainIfDue.bind fun _ after leads _ => .assuming fun _ sound => .heap_bind ?_
  cases reading : after.heap.body self with
  | function definition owner =>
    have ownerUsed : ∀ ref, owner = .bound ref → ref.place < after.heap.size := by
      rintro ref rfl
      refine sound.used_of_body self ?_
      rw [reading]
      simp [Body.references]
    refine (runs_functionOwner ownerUsed).bind fun owned last leads' _ => .assuming fun _ sound' => ?_
    have running : Runs program touch
        (program.runEntry callback definition.entry owned positional keywords) last 0
        (fun ref => {ref}) fun _ _ => True :=
      runs_runEntry honest confined calls (sound'.used_of_held (by simp))
        ((leads.trans leads').usedAll used)
        fun ref member => (leads.trans leads').used (keywordsUsed ref member)
    have run : Runs program touch
        ((program.runEntry callback definition.entry owned positional keywords).always
          (·.release owned)) last (0 + {owned}) (fun ref => {ref}) fun _ _ => True :=
      running.always (fun final => path_release final owned) fun _ _ _ _ _ => trivial
    rwa [zero_add] at run
  | type shape =>
    exact runs_instantiate honest confined calls (leads.used selfUsed) (leads.usedAll used)
      fun ref member => leads.used (keywordsUsed ref member)
  | _ => exact .raise _

end

theorem runs_callWithin (honest : program.Honest) (confined : program.Confined touch)
    (depth : Nat) :
    ∀ (callee : Ref) (positional : List Ref) (keywords : Option Ref) (world : World),
      callee.place < world.heap.size → (∀ ref ∈ positional, ref.place < world.heap.size) →
      (∀ ref ∈ keywords, ref.place < world.heap.size) →
        Runs program touch (program.callWithin depth callee positional keywords) world 0
          (fun ref => {ref}) fun _ _ => True := by
  induction depth with
  | zero => exact fun _ _ _ _ _ _ _ => .throw _
  | succ depth ih =>
    intro callee positional keywords world calleeUsed used keywordsUsed
    have calls : Callback.Counts program touch
        (fun callee arguments => program.callWithin depth callee arguments none) :=
      fun callee arguments world calleeUsed used =>
        ih callee arguments none world calleeUsed used fun ref member => by cases member
    refine .heap_bind ?_
    cases keywords with
    | none => exact runs_callee honest confined calls calleeUsed used keywordsUsed
    | some dict =>
      dsimp only
      split
      · exact .of_error rfl
      · exact runs_callee honest confined calls calleeUsed used keywordsUsed

theorem runs_call (honest : program.Honest) (confined : program.Confined touch) {callee : Ref}
    {positional : List Ref}
    {keywords : Option Ref} (calleeUsed : callee.place < world.heap.size)
    (used : ∀ ref ∈ positional, ref.place < world.heap.size)
    (keywordsUsed : ∀ ref ∈ keywords, ref.place < world.heap.size) :
    Runs program touch (program.call callee positional keywords) world 0
      (fun ref => {ref}) fun _ _ => True :=
  runs_callWithin honest confined callDepth callee positional keywords world calleeUsed used keywordsUsed

theorem runs_callMethod (honest : program.Honest) (confined : program.Confined touch) {self : Ref}
    {name : String}
    {positional : List Ref} (selfUsed : self.place < world.heap.size)
    (used : ∀ ref ∈ positional, ref.place < world.heap.size) :
    Runs program touch (program.callMethod self name positional) world 0
      (fun ref => {ref}) fun _ _ => True := by
  refine (runs_getAttribute confined selfUsed).bind fun method after leads _ => ?_
  refine .assuming fun _ sound => ?_
  have calling : Runs program touch (program.call method positional none) after 0
      (fun ref => {ref}) fun _ _ => True :=
    runs_call honest confined (sound.used_of_held (by simp)) (leads.usedAll used)
      fun ref member => by cases member
  have run : Runs program touch
      ((program.call method positional none).always (·.release method)) after (0 + {method})
      (fun ref => {ref}) fun _ _ => True :=
    calling.always (fun final => path_release final method) fun _ _ _ _ _ => trivial
  rwa [zero_add] at run

end HostBridge.Program
