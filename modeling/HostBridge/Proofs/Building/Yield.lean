import HostBridge.Proofs.Building.Undone
import HostBridge.Proofs.Dict.Overwriting
import HostBridge.Proofs.Dict.Upkeep
import HostBridge.Proofs.Equality.Hashing
import HostBridge.Proofs.Ownership.Encode

/-!
# Contract of building

An operation that builds hands over what it has built with its result; if it fails, it has given up
all of it, and it is known what is to blame.  The rules below are those for the ways in which
operations are put together.
-/

namespace HostBridge

/-- A world that is built on, the references that it lends, and those that other code holds. -/
structure World.Foundation (program : Program) (base : World) (lent : Ref → Prop)
    (frame : Multiset Ref) : Prop where
  sound : base.Sound program frame
  tidy : base.Tidy
  layered : base.heap.Layered
  old : ∀ ref, lent ref → ref.place < base.heap.size

namespace Builds

variable {program : Program} {lent : Ref → Prop} {base world after : World}
  {held taken : Multiset Ref}

/-- Building goes on from what has been built. -/
theorem onward (begun : Builds program lent base 0 world (held + taken)) {given : Multiset Ref}
    (builds : Builds program lent world taken after given) :
    Builds program lent base 0 after (held + given) := by
  have framed := builds.frame held
  rw [add_comm taken, add_comm given] at framed
  exact begun.trans framed

theorem retain {ref : Ref} (used : ref.place < world.heap.size) (found : lent ref ∨ ref ∈ held) :
    Builds program lent world held (world.retain ref) (held + {ref}) :=
  .single (.retain ref used found rfl)

theorem retainAll {refs : List Ref} (used : ∀ ref ∈ refs, ref.place < world.heap.size)
    (found : ∀ ref ∈ refs, lent ref ∨ ref ∈ held) :
    Builds program lent world held (world.retainAll refs) (held + refs) := by
  induction refs generalizing world held with
  | nil =>
    rw [Multiset.coe_nil, add_zero]
    exact .refl _ _
  | cons ref refs ih =>
    have first : Builds program lent world held (world.retain ref) (held + {ref}) :=
      retain (used ref (by simp)) (found ref (by simp))
    have later : Builds program lent (world.retain ref) (held + {ref})
        ((world.retain ref).retainAll refs) (held + {ref} + refs) := by
      refine ih (fun other member => ?_) fun other member => ?_
      · simpa [World.retain] using used other (by simp [member])
      · exact (found other (by simp [member])).imp_right fun inside => by simp [inside]
    rw [Tally.coe_cons, ← add_assoc]
    exact first.trans later

/-- Giving up references, with all that goes away with the last ones. -/
theorem releaseAll (world : World) (refs : List Ref) (held : Multiset Ref) :
    Builds program lent world (held + refs) (world.releaseAll refs) held :=
  World.releaseAll_along (Builds program lent) .refl .trans
    (fun ref gone => single (.forget ref gone rfl))
    (fun ref _ there shared => single (.lower ref there shared rfl))
    (fun ref _ there last => single (.retire ref _ there last rfl rfl)) world refs held

/-- Giving up references when nothing else is held. -/
theorem releaseAll_last (world : World) (refs : List Ref) :
    Builds program lent world refs (world.releaseAll refs) 0 := by
  have given : Builds program lent world (0 + refs) (world.releaseAll refs) 0 :=
    releaseAll world refs 0
  rwa [zero_add] at given

/-- Giving up keys and values, in pairs that are listed from the last to the first. -/
theorem releasePairs (world : World) (pairs : List (Ref × Ref)) :
    Builds program lent world (Op.pairReferences pairs)
      (world.releaseAll (Op.pairReferences pairs.reverse)) 0 := by
  rw [← Op.coe_pairReferences_reverse]
  exact releaseAll_last world _

theorem place {body : Body} (data : body.Data) (admits : world.heap.Admits body) :
    Builds program lent world body.references (world.place body).2 {world.heap.next} :=
  .single (.place body 0 data admits (zero_add _).symm (zero_add _).symm)

end Builds

namespace Op

variable {α β : Type} (program : Program) (lent : Ref → Prop) (base : World)

/-- An operation builds on a world.  It takes the references `taken` and hands over `given` with a
result of which `post` holds; if it fails, it hands over nothing, and `blame` holds of the fault. -/
def Yields (action : Op α) (world : World) (taken : Multiset Ref) (given : α → Multiset Ref)
    (post : α → World → Prop) (blame : Fault → Prop) : Prop :=
  ∀ held, Builds program lent base 0 world (held + taken) →
    match action.run world with
    | (.ok value, after) => Builds program lent world taken after (given value) ∧ post value after
    | (.error fault, after) => Builds program lent world taken after 0 ∧ blame fault

namespace Yields

variable {program lent base} {world : World} {taken rest : Multiset Ref}
  {given : α → Multiset Ref} {post : α → World → Prop} {blame : Fault → Prop} {action : Op α}

theorem ok {held : Multiset Ref} {value : α} {after : World}
    (yields : Yields program lent base action world taken given post blame)
    (begun : Builds program lent base 0 world (held + taken))
    (ended : action.run world = (.ok value, after)) :
    Builds program lent world taken after (given value) ∧ post value after := by
  have run := yields held begun
  rwa [ended] at run

theorem of_ok {value : α} {after : World} (ended : action.run world = (.ok value, after))
    (builds : Builds program lent world taken after (given value)) (holds : post value after) :
    Yields program lent base action world taken given post blame := by
  intro held _
  rw [ended]
  exact ⟨builds, holds⟩

theorem of_error {fault : Fault} {after : World} (ended : action.run world = (.error fault, after))
    (builds : Builds program lent world taken after 0) (blamed : blame fault) :
    Yields program lent base action world taken given post blame := by
  intro held _
  rw [ended]
  exact ⟨builds, blamed⟩

theorem assuming
    (yields : ∀ held, Builds program lent base 0 world (held + taken) →
      Yields program lent base action world taken given post blame) :
    Yields program lent base action world taken given post blame :=
  fun held begun => yields held begun held begun

/-- Weaker statements about the result, which is built, and about the fault. -/
theorem weaken {post' : α → World → Prop} {blame' : Fault → Prop}
    (yields : Yields program lent base action world taken given post blame)
    (follows : ∀ held value after, Builds program lent base 0 after (held + given value) →
      Builds program lent world taken after (given value) → post value after → post' value after)
    (blamed : ∀ fault, blame fault → blame' fault) :
    Yields program lent base action world taken given post' blame' := by
  intro held begun
  have run := yields held begun
  rcases ended : action.run world with ⟨result, after⟩
  rw [ended] at run
  cases result with
  | ok value => exact ⟨run.1, follows held value after (begun.onward run.1) run.1 run.2⟩
  | error fault => exact ⟨run.1, blamed fault run.2⟩

/-- A weaker statement about the fault. -/
theorem blaming {blame' : Fault → Prop}
    (yields : Yields program lent base action world taken given post blame)
    (blamed : ∀ fault, blame fault → blame' fault) :
    Yields program lent base action world taken given post blame' :=
  yields.weaken (fun _ _ _ _ _ => id) blamed

/-- One operation after another. -/
theorem bind {next : α → Op β} {given' : β → Multiset Ref} {post' : β → World → Prop}
    (yields : Yields program lent base action world taken given post blame)
    (later : ∀ value after, Builds program lent world taken after (given value) →
      post value after → Yields program lent base (next value) after (given value) given' post' blame) :
    Yields program lent base (action >>= next) world taken given' post' blame := by
  intro held begun
  have run := yields held begun
  rcases ended : action.run world with ⟨result, after⟩
  rw [ended] at run
  cases result with
  | error fault =>
    rw [Operation.run_bind_of_error ended]
    exact run
  | ok value =>
    rw [Operation.run_bind_of_ok ended]
    have run' := later value after run.1 run.2 held (begun.onward run.1)
    rcases ended' : (next value).run after with ⟨result', final⟩
    rw [ended'] at run'
    cases result' with
    | ok value' => exact ⟨run.1.trans run'.1, run'.2⟩
    | error fault => exact ⟨run.1.trans run'.1, run'.2⟩

/-- A look at the world, then an operation. -/
theorem look_bind {value : α} {next : α → Op β} {given' : β → Multiset Ref}
    {post' : β → World → Prop} (ended : action.run world = (.ok value, world))
    (later : Yields program lent base (next value) world taken given' post' blame) :
    Yields program lent base (action >>= next) world taken given' post' blame := by
  intro held begun
  rw [Operation.run_bind_of_ok ended]
  exact later held begun

/-- A step that gives up what an operation would otherwise leave to its caller. -/
theorem undoing {step : World → World}
    (yields : Yields program lent base action world taken given post blame)
    (undo : ∀ after, Builds program lent after rest (step after) 0) :
    Yields program lent base (action.undoing step) world (taken + rest)
      (fun value => given value + rest) post blame := by
  intro held begun
  have run := yields (held + rest) (by rwa [add_assoc, add_comm rest])
  rcases ended : action.run world with ⟨result, after⟩
  rw [ended] at run
  rw [Op.undoing, run_ofFunction, ended]
  cases result with
  | ok value => exact ⟨run.1.frame rest, run.2⟩
  | error fault =>
    refine ⟨(run.1.frame rest).trans ?_, run.2⟩
    rw [zero_add]
    exact undo after

/-- What else is held takes no part in an operation that cannot fail. -/
theorem sure {value : α} {after : World}
    (yields : Yields program lent base action world taken given post blame)
    (ended : action.run world = (.ok value, after)) (rest : Multiset Ref) :
    Yields program lent base action world (taken + rest) (fun value => given value + rest) post
      blame := by
  refine .assuming fun held begun => ?_
  rw [add_comm taken, ← add_assoc] at begun
  obtain ⟨builds, holds⟩ := yields.ok begun ended
  exact .of_ok ended (builds.frame rest) holds

/-- An operation that hands over one object takes its turn beside what is held already. -/
theorem beside {action : Op Ref} {post : Ref → World → Prop} {step : World → World}
    (yields : Yields program lent base action world 0 (fun ref => {ref}) post blame)
    (undo : ∀ after, Builds program lent after rest (step after) 0) :
    Yields program lent base (action.undoing step) world rest (fun ref => {ref} + rest) post blame := by
  have held := yields.undoing undo
  rwa [zero_add] at held

end Yields

/-! ## Contracts of the first operations -/

section

variable {program lent base} {world : World} {blame : Fault → Prop}

/-- One more reference to what is lent. -/
theorem yields_retain {ref : Ref} (used : ref.place < world.heap.size) (found : lent ref) :
    Yields program lent base (retain ref) world 0 (fun given => {given})
      (fun given _ => given = ref) blame := by
  refine .of_ok (run_retain world ref) ?_ rfl
  have taken : Builds program lent world 0 (world.retain ref) (0 + {ref}) :=
    .retain used (.inl found)
  rwa [zero_add] at taken

theorem yields_place {body : Body} (data : body.Data) (admits : world.heap.Admits body) :
    Yields program lent base (place body) world body.references (fun ref => {ref})
      (fun ref after => after.heap.body ref = body) blame :=
  .of_ok (run_place world body) (.place data admits) (Heap.body_eq (Heap.cell?_push_next _ _))

/-- New data that is no dict. -/
theorem yields_keyless (body : Body) (data : body.Data) (keyless : body.Keyless) :
    Yields program lent base (place body) world body.references (fun ref => {ref})
      (fun ref after => after.heap.body ref = body) blame :=
  yields_place data (.of_keyless _ keyless)

/-- A new text beside what is held already. -/
theorem yields_text (text : String) (rest : Multiset Ref) :
    Yields program lent base (place (.text text)) world rest (fun ref => {ref} + rest)
      (fun ref after => after.heap.body ref = .text text) blame := by
  have alone : Yields program lent base (place (.text text)) world 0 (fun ref => {ref})
      (fun ref after => after.heap.body ref = .text text) blame :=
    yields_keyless (.text text) trivial trivial
  have beside := alone.sure (run_place world _) rest
  rwa [zero_add] at beside

/-! ### Dicts -/

theorem yields_emptyDict :
    Yields program lent base (place (.dict .empty)) world 0 (fun ref => {ref})
      (fun ref after => after.heap.body ref = .dict .empty) blame :=
  yields_place trivial (.empty _)

theorem hashable_of_dictOf {heap : Heap} {pairs : List (Ref × Ref)} {table : Dict}
    (made : dictOf heap pairs = .ok table) : ∀ pair ∈ pairs, heap.Hashable pair.1 := by
  rw [dictOf] at made
  generalize Dict.empty = start at made
  induction pairs generalizing start with
  | nil => simp
  | cons pair rest ih =>
    rw [List.foldlM_cons] at made
    obtain ⟨middle, here, later⟩ := Refusal.exists_of_bind_eq_ok made
    obtain ⟨projection, hashed, _⟩ := Refusal.exists_of_bind_eq_ok here
    exact List.forall_mem_cons.mpr ⟨⟨projection, hashed⟩, ih middle later⟩

/-- A dict is not made if one of the keys has no projection. -/
theorem exists_of_dictOf_error {heap : Heap} {pairs : List (Ref × Ref)} {exception : Exception}
    (failed : dictOf heap pairs = .error exception) :
    ∃ pair ∈ pairs, heap.key pair.1 = .error exception := by
  rw [dictOf] at failed
  generalize Dict.empty = start at failed
  induction pairs generalizing start with
  | nil => cases failed
  | cons pair rest ih =>
    obtain ⟨name, value⟩ := pair
    rw [List.foldlM_cons] at failed
    dsimp only at failed
    cases hashed : heap.key name with
    | error exception' =>
      rw [hashed] at failed
      cases failed
      exact ⟨(name, value), by simp, hashed⟩
    | ok projection =>
      rw [hashed] at failed
      obtain ⟨other, member, stopped⟩ := ih _ failed
      exact ⟨other, by simp [member], stopped⟩

/-- A dict is made of keys and values that are handed over, unless a key has no projection. -/
theorem yields_placeDict {frame : Multiset Ref} (founded : base.Foundation program lent frame)
    {pairs : List (Ref × Ref)}
    (blamed : ∀ pair ∈ pairs, ∀ exception, world.heap.key pair.1 = .error exception →
      blame (.raised exception)) :
    Yields program lent base (placeDict pairs) world (pairReferences pairs) (fun dict => {dict})
      (fun dict after => (∃ table, after.heap.body dict = .dict table) ∧
        ∀ pair ∈ pairs, world.heap.Hashable pair.1) blame := by
  refine .assuming fun held begun => ?_
  have sound := begun.sound founded.sound
  rw [add_right_comm, add_comm] at sound
  have ran : (placeDict pairs).run world =
      match dictOf world.heap pairs with
      | .ok table => (.ok (world.create (.dict table)).1,
          (world.create (.dict table)).2.releaseAll (pairReferences pairs))
      | .error exception => (.error (.raised exception),
          world.releaseAll (pairReferences pairs)) := by
    rw [placeDict, run_always, createDict, Operation.run_bind_of_ok (run_heap world),
      Operation.run_bind, run_ofExcept]
    cases dictOf world.heap pairs <;> rfl
  cases made : dictOf world.heap pairs with
  | error exception =>
    rw [made] at ran
    obtain ⟨pair, member, stopped⟩ := exists_of_dictOf_error made
    exact .of_error ran (.releaseAll_last world _) (blamed pair member exception stopped)
  | ok table =>
    rw [made] at ran
    have mine : ∀ ref ∈ table.references, ref ∈ pairReferences pairs :=
      fun ref member => mem_references_dictOf made member
    have admits : (world.retainAll table.references).heap.Admits (.dict table) := by
      refine ⟨by simp, fun _ same => ?_⟩
      cases same
      refine (indexes_dictOf (fun pair member => ?_) made).follows
        (World.Canonical.follows_retainAll world _)
      refine sound.used_of_held (Multiset.mem_add.mpr (.inl ?_))
      exact List.mem_flatMap.mpr ⟨pair, member, by simp⟩
    have taken : Builds program lent world (pairReferences pairs)
        (world.retainAll table.references) (pairReferences pairs + table.references) :=
      .retainAll (fun ref member => sound.used_of_held (by simp [mine ref member]))
        fun ref member => .inr (mine ref member)
    have placed : Builds program lent (world.retainAll table.references)
        (pairReferences pairs + table.references) (world.create (.dict table)).2
        (pairReferences pairs + {(world.create (.dict table)).1}) := by
      have alone : Builds program lent (world.retainAll table.references)
          (Body.dict table).references (world.create (.dict table)).2
          {(world.create (.dict table)).1} := .place trivial admits
      rw [add_comm, add_comm (pairReferences pairs : Multiset Ref)]
      exact alone.frame _
    refine .of_ok ran ((taken.trans placed).trans ?_) ⟨?_, hashable_of_dictOf made⟩
    · rw [add_comm]
      exact .releaseAll _ _ _
    · have placing : Runs program .nothing (placeDict pairs) world _ _ _ :=
        runs_placeDict_table pairs
      obtain ⟨_, _, _, reading⟩ := placing.ok sound ran
      exact ⟨_, reading⟩

end

end Op

/-! ## Wrappers -/

namespace Builds

variable {program : Program} {lent : Ref → Prop} {first second third : World}
  {given taken given' taken' : List Ref}

/-- References that are traded one after the other. -/
theorem append (front : Builds program lent first given second taken)
    (back : Builds program lent second given' third taken') :
    Builds program lent first (given ++ given' : List Ref) third (taken ++ taken' : List Ref) := by
  have one := front.frame given'
  have two := back.frame taken
  rw [← Multiset.coe_add, ← Multiset.coe_add]
  rw [add_comm (given' : Multiset Ref), add_comm (taken' : Multiset Ref)] at two
  exact one.trans two

end Builds

namespace HostValue

variable {program : Program} {lent : Ref → Prop}

mutual

/-- The missing dicts of a value are built. -/
theorem builds_completed : ∀ (value : HostValue) (world : World),
    Builds program lent world value.references (value.completed world).2
      (value.completed world).1.references
  | .keywords none, world => by
    have made : Builds program lent world (Body.dict .empty).references
        (world.place (.dict .empty)).2 {world.heap.next} := .place trivial (.empty _)
    exact made
  | .seq elements, world | .tuple elements, world | .struct elements, world =>
    builds_completedAll elements world
  | .map entries, world => builds_completedEntries entries world
  | .boxed value, world | .present value, world => builds_completed value world
  | .unit, _ | .bool _, _ | .int _, _ | .single _, _ | .double _, _ | .complexSingle _ _, _
  | .complexDouble _ _, _ | .text _, _ | .bytes _, _ | .absent, _ | .object _, _
  | .keywords (some _), _ | .sealed _, _ => .refl _ _

theorem builds_completedAll : ∀ (values : List HostValue) (world : World),
    Builds program lent world (referencesAll values) (completedAll values world).2
      (referencesAll (completedAll values world).1)
  | [], world => .refl world _
  | value :: values, world =>
    (builds_completed value world).append (builds_completedAll values _)

theorem builds_completedEntries : ∀ (entries : List (HostValue × HostValue)) (world : World),
    Builds program lent world (referencesEntries entries) (completedEntries entries world).2
      (referencesEntries (completedEntries entries world).1)
  | [], world => .refl world _
  | (key, value) :: entries, world =>
    ((builds_completed key world).append (builds_completed value _)).append
      (builds_completedEntries entries _)

end

end HostValue

namespace Op

variable {program : Program} {lent : Ref → Prop} {base world : World} {blame : Fault → Prop}

/-- A wrapper of a copy is built, the references of the value and the type being lent. -/
theorem yields_wrapCopy {registry : RegistryId} {type : Ref} {value : HostValue}
    {bridged : BridgedType} (shape : world.heap.bridgedType? type = some bridged)
    (same : bridged.registry = registry) (fit : value.fits program (.struct bridged.host) = true)
    (used : ∀ ref ∈ value.references, ref.place < world.heap.size)
    (found : ∀ ref ∈ value.references, lent ref) (typeFound : lent type) :
    Yields program lent base (wrapCopy registry type value) world 0 (fun ref => {ref})
      (fun ref after => after.heap.wrapper? ref = some (.owned (copied value world), bridged))
      blame := by
  have copying : Makes program .nothing (wrapCopy registry type value) world [] (fun ref => [ref])
      fun ref after => after.heap.wrapper? ref = some (.owned (copied value world), bridged) :=
    makes_wrapCopy shape same fit used
  obtain ⟨_, _, ended, _, reading⟩ := copying
  have ran := Operation.run_bind_of_ok (run_adopt value world) fun copy =>
    wrap registry type (.owned copy)
  rw [run_wrap] at ran
  refine .of_ok ran ?_ ?_
  · have taken : Builds program lent world 0 (world.retainAll value.references)
        (0 + value.references) := .retainAll used fun ref member => .inl (found ref member)
    rw [zero_add] at taken
    have completed : World.Makes program .nothing (world.retainAll value.references)
        value.references (adopted value world) (copied value world).references :=
      value.makes_completed _
    have more : world.Extends (adopted value world) :=
      (World.Extends.retainAll world _).trans completed.more
    have adopting : Builds program lent world 0 (adopted value world)
        (copied value world).references := taken.trans (value.builds_completed _)
    have held : Builds program lent (adopted value world) (copied value world).references
        ((adopted value world).retain type) ((copied value world).references + {type}) :=
      .retain (more.used shape) (.inl typeFound)
    have shows : ((adopted value world).retain type).heap.Shows program registry type
        (.owned (copied value world)) := by
      refine ⟨bridged, (more.trans (.retain _ type)).bridgedType? shape, same, .owned ?_⟩
      rwa [copied, HostValue.fits_completed]
    refine ((adopting.trans held).step (.enter registry type _ 0 shows ?_ rfl)).step (.note _ _)
    rw [zero_add, ← Multiset.coe_add]
    rfl
  · rw [wrapCopy] at ended
    rw [ended] at ran
    cases ran
    exact reading

end Op

end HostBridge
